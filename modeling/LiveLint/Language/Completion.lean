import LiveLint.Text.Bytes
import LiveLint.Text.Search

/-!
# Completion

What an editor offers while a word is typed. The word is what stands before the cursor, as far
back as it consists of ASCII letters and digits, low lines, points, slashes and hyphens; accepting
a candidate replaces it. A candidate fits if its label starts with the word, with the opening
brackets or hashes before the label or without them.

With no word before the cursor everything is offered, but only on request or right after a point
or an opening bracket.
-/

namespace LiveLint.Language

/-- How an editor shows a candidate. -/
inductive CandidateKind
  /-- A directive or an include line. -/
  | keyword
  /-- A block tag. -/
  | type
  /-- Anything that looks like a call. -/
  | function
  /-- Everything else. -/
  | other
deriving DecidableEq, Repr

namespace CandidateKind

/-- The word for a kind of candidate. -/
def name : CandidateKind → String
  | keyword => "keyword"
  | type => "type"
  | function => "function"
  | other => "variable"

/-- The kind that a label tells. -/
def ofLabel (label : String) : CandidateKind :=
  let cs := label.toList
  if ['.'].isPrefixOf cs then keyword
  else if ['['].isPrefixOf cs then type
  else if cs.contains '(' then function
  else if "#include".toList.isPrefixOf cs then keyword
  else other

end CandidateKind

/-- A candidate; its label is what is inserted. -/
structure Candidate where
  label : String
deriving DecidableEq, Repr

namespace Candidate

/-- How a candidate is shown. -/
def kind (c : Candidate) : CandidateKind := .ofLabel c.label

/-- A character that may open a label without being typed. -/
def isOpening (c : Char) : Bool := c == '[' || c == '#'

/-- Whether a candidate fits a word. -/
def fits (c : Candidate) (word : List Char) : Bool :=
  let label := c.label.toList
  word.isPrefixOf label || word.isPrefixOf (label.dropWhile isOpening)

end Candidate

/-- A character of the word before the cursor. -/
def isWordPart (c : Char) : Bool :=
  c.isAlphanum || c == '_' || c == '.' || c == '/' || c == '-'

/-- The word that ends a text. -/
def wordBefore (cs : List Char) : List Char :=
  (cs.reverse.takeWhile isWordPart).reverse

/-- What is offered. -/
structure Offer where
  /-- The byte at which the replaced word starts. -/
  start : Nat
  word : String
  items : List Candidate
deriving DecidableEq, Repr

/-- The candidates of a language, in order. -/
structure Vocabulary where
  candidates : List Candidate
deriving DecidableEq, Repr

namespace Vocabulary

/-- The candidates of the given labels. -/
def ofLabels (labels : List String) : Vocabulary :=
  ⟨labels.map Candidate.mk⟩

/-- Whether everything is offered after a text that ends in no word. -/
def opensAfter (cs : List Char) : Bool :=
  cs.getLast?.any fun c => c == '.' || c == '['

/-- What is offered after a text; `onRequest` if the author asked for it. -/
def offerAfter (v : Vocabulary) (before : String) (onRequest : Bool) : Option Offer :=
  let cs := before.toList
  let word := wordBefore cs
  if word.isEmpty then
    if onRequest || opensAfter cs then some ⟨Text.byteLength cs, "", v.candidates⟩ else none
  else
    some ⟨Text.byteLength cs - Text.byteLength word, String.ofList word,
      v.candidates.filter (·.fits word)⟩

end Vocabulary

end LiveLint.Language
