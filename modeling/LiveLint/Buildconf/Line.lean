import LiveLint.Text.Blank
import LiveLint.Text.Lines

/-!
# Lines of a build configuration

The format is strictly line by line. With the blanks at both ends put aside, every line is exactly
one of: nothing, a `;;` comment, a header that starts with `!muf`, the closer `..`, an opener
`[tag]` or `[tag name]`, a directive `.name rest`, or plain text. They are tried in this order.

What stands after the bracket that ends an opener is not read. An opener may say anything between
tag and bracket, but only a plain identifier is a name.
-/

namespace LiveLint.Buildconf

/-- What a line is. -/
inductive LineKind
  | blank
  | comment
  /-- A header, which is valid when it asks for version 4 and nothing else. -/
  | header (valid : Bool)
  | opener (tag : String) (name : Option String)
  | closer
  | directive (name rest : String)
  | text
deriving DecidableEq, Repr

/-- A character of tags and names: an ASCII letter or digit, a low line, a hyphen. -/
def isIdentChar (c : Char) : Bool :=
  c.isAlphanum || c == '_' || c == '-'

/-- A character that a directive's name starts with: an ASCII letter or a low line. -/
def isNameStart (c : Char) : Bool :=
  c.isAlpha || c == '_'

/-- Whether a text is a plain identifier. -/
def isIdentifier (cs : List Char) : Bool :=
  !cs.isEmpty && cs.all isIdentChar

/-- Whether a text opens with a blank. -/
def startsBlank : List Char → Bool
  | [] => false
  | c :: _ => Text.isBlank c

/-- Whether what follows `!muf` on a trimmed line asks for version 4. -/
def asksVersionFour (after : List Char) : Bool :=
  startsBlank after && Text.trimStart after == ['4']

/-- A text as a name, if it is a plain identifier. -/
def name? (cs : List Char) : Option String :=
  if isIdentifier cs then some (String.ofList cs) else none

/-- Read a trimmed line as an opener. Between tag and bracket stands nothing, or a blank and at
least one more character. -/
def opener? : List Char → Option LineKind
  | '[' :: r =>
    let tag := r.takeWhile isIdentChar
    let afterTag := r.dropWhile isIdentChar
    let middle := afterTag.takeWhile (· != ']')
    if tag.isEmpty || !afterTag.contains ']' then none
    else if middle.isEmpty || (startsBlank middle && 2 ≤ middle.length) then
      some (.opener (String.ofList tag) (name? (Text.trim middle)))
    else none
  | _ => none

/-- Read a trimmed line as a directive. -/
def directive? : List Char → Option LineKind
  | '.' :: c :: r =>
    let name := (c :: r).takeWhile isIdentChar
    let after := (c :: r).dropWhile isIdentChar
    if isNameStart c && (after.isEmpty || startsBlank after) then
      some (.directive (String.ofList name) (String.ofList (Text.trim after)))
    else none
  | _ => none

/-- What a trimmed line is. -/
def LineKind.ofTrimmed (t : List Char) : LineKind :=
  if t.isEmpty then .blank
  else if [';', ';'].isPrefixOf t then .comment
  else if ['!', 'm', 'u', 'f'].isPrefixOf t then .header (asksVersionFour (t.drop 4))
  else if t = ['.', '.'] then .closer
  else ((opener? t).orElse fun _ => directive? t).getD .text

/-- What a line is. -/
def LineKind.ofLine (raw : List Char) : LineKind :=
  .ofTrimmed (Text.trim raw)

/-- One line of a document. -/
structure Line where
  /-- Its number, counted from 1. -/
  number : Nat
  /-- What it says, without the line feed. -/
  raw : List Char
  kind : LineKind := .ofLine raw
deriving DecidableEq, Repr

namespace Line

/-- The line without the blanks at its ends. -/
def trimmed (line : Line) : List Char :=
  Text.trim line.raw

/-- Whether the line is more than layout: neither blank nor a comment. -/
def isMeaningful (line : Line) : Bool :=
  line.kind != .blank && line.kind != .comment

/-- The lines of a text. -/
def ofText (cs : List Char) : List Line :=
  ((Text.splitLines cs).zipIdx 1).map fun (raw, number) => { number, raw }

theorem length_ofText (cs : List Char) : (ofText cs).length = (Text.splitLines cs).length := by
  simp [ofText]

theorem raw_ofText (cs : List Char) : (ofText cs).map raw = Text.splitLines cs := by
  simp [ofText, Function.comp_def]

end Line

end LiveLint.Buildconf
