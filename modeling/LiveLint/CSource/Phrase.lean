import LiveLint.Text.Runs
import LiveLint.Text.Search

/-!
# Phrases

What the whole-text checks look for: a fixed phrase such as a call of a function, an include line
or a return of zero. A phrase is a sequence of parts that are read from left to right, each taking
all it can, and none ever gives anything back: the part that follows a gap cannot start with a
blank, and the part that follows a word cannot start with a word character, so giving back would
not help, and a phrase is found where its pattern is (`map_start_find?_writtenPhrases`). A phrase
stands in a text where all its parts can be read one after the other.
-/

namespace LiveLint.CSource

/-- One step of reading a phrase. -/
inductive Part
  /-- Exactly this text. -/
  | text (s : String)
  /-- Any blanks, or none. -/
  | gap
  /-- One blank at least. -/
  | space
  /-- One word character at least. -/
  | word
  /-- A text between double quotes that contains `s`. -/
  | quoted (s : String)
  /-- Everything up to the next `c`, and that `c`. -/
  | through (c : Char)
deriving DecidableEq, Repr

/-- The text after the part, if it can be read at the head. -/
def Part.read : Part → List Char → Option (List Char)
  | text s, cs => Text.after? s.toList cs
  | gap, cs => some (Text.trimStart cs)
  | space, c :: r => if Text.isBlank c then some (Text.trimStart r) else none
  | space, [] => none
  | word, c :: r => if Text.isWord c then some (r.dropWhile Text.isWord) else none
  | word, [] => none
  | quoted s, cs =>
    match cs with
    | '"' :: r =>
      match r.dropWhile (· != '"') with
      | _ :: after => if Text.occurs s.toList (r.takeWhile (· != '"')) then some after else none
      | [] => none
    | _ => none
  | through c, cs => (cs.dropWhile (· != c)).tail?

/-- The text after all parts, if they can be read one after the other. -/
def readParts (parts : List Part) (cs : List Char) : Option (List Char) :=
  parts.foldlM (fun rest part => part.read rest) cs

/-- A sequence of parts, which may have to start where a word starts or ends. -/
structure Phrase where
  atBoundary : Bool
  parts : List Part
deriving DecidableEq, Repr

namespace Phrase

/-- A phrase that starts with a whole word. -/
def ofWord (w : String) (parts : List Part) : Phrase :=
  ⟨true, .text w :: parts⟩

/-- A phrase that may start inside a word. -/
def anywhere (parts : List Part) : Phrase :=
  ⟨false, parts⟩

/-- A call of a function: its name, a gap, an opening parenthesis. -/
def call (name : String) : Phrase :=
  ofWord name [.gap, .text "("]

/-- An include line for a header. -/
def includes (header : String) : Phrase :=
  anywhere [.text "#include", .gap, .text ("<" ++ header ++ ">")]

/-- Whether the phrase starts here, after the character `prev`. -/
def startsAt (p : Phrase) (prev : Option Char) (cs : List Char) : Bool :=
  (!p.atBoundary || Text.isBoundary prev cs.head?) && (readParts p.parts cs).isSome

/-- Where the phrase first starts, in a text whose head stands at `pos` after `prev`. -/
def findFrom (p : Phrase) (prev : Option Char) (pos : Nat) : List Char → Option Nat
  | [] => none
  | c :: r => if p.startsAt prev (c :: r) then some pos else p.findFrom (some c) (pos + 1) r

/-- Where the phrase first starts. -/
def find? (p : Phrase) (cs : List Char) : Option Nat :=
  p.findFrom none 0 cs

/-- Whether the phrase stands in the text. -/
def standsIn (p : Phrase) (cs : List Char) : Bool :=
  (p.find? cs).isSome

end Phrase

end LiveLint.CSource
