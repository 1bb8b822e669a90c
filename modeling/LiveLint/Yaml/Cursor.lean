/-!
# Reading YAML text

A cursor is a place in a text: the rest of it, and a mark that says how many bytes, lines and
columns lie before. A column is one character wide, whatever its bytes. YAML has five line breaks;
a carriage return with a line feed counts as one. All of them read as a line feed, except the line
and paragraph separators, which read as themselves. Blanks inside a line are the space and the tab
alone.
-/

namespace LiveLint.Yaml

/-- A place in a text, all parts counted from 0. -/
structure Mark where
  /-- Bytes before, in UTF-8. -/
  offset : Nat
  /-- Lines before. -/
  line : Nat
  /-- Characters before on the same line. -/
  column : Nat
deriving DecidableEq, Repr

namespace Mark

/-- The start of a text. -/
def start : Mark := ⟨0, 0, 0⟩

/-- After one more character of the line. -/
def pass (m : Mark) (c : Char) : Mark :=
  { m with offset := m.offset + c.utf8Size, column := m.column + 1 }

/-- After a line break of `n` bytes. -/
def nextLine (m : Mark) (n : Nat) : Mark :=
  ⟨m.offset + n, m.line + 1, 0⟩

end Mark

/-- A place in a text, with what follows. -/
structure Cursor where
  mark : Mark
  rest : List Char
deriving DecidableEq, Repr

/-- After `n` more characters of the line. -/
def Cursor.forward (cursor : Cursor) (n : Nat) : Cursor :=
  ⟨(cursor.rest.take n).foldl .pass cursor.mark, cursor.rest.drop n⟩

/-- A blank inside a line. -/
def isSpace (c : Char) : Bool :=
  c == ' ' || c == '\t'

/-- A character that breaks lines. -/
def isBreak (c : Char) : Bool :=
  c == '\n' || c == '\r' || c == '\x85' || c == '\u2028' || c == '\u2029'

/-- What a line break reads as. -/
def breakText (c : Char) : List Char :=
  if c == '\u2028' || c == '\u2029' then [c] else ['\n']

/-- Whether nothing but a blank, a break or the end follows. -/
def atGap : List Char → Bool
  | [] => true
  | c :: _ => isSpace c || isBreak c

/-- Whether a document marker follows, `---` or `...`. -/
def atDocumentMarker : List Char → Bool
  | '-' :: '-' :: '-' :: r => atGap r
  | '.' :: '.' :: '.' :: r => atGap r
  | _ => false

/-- Whether a document marker follows at the start of a line. -/
def Cursor.atMarkerLine (c : Cursor) : Bool :=
  c.mark.column == 0 && atDocumentMarker c.rest

/-- A character that YAML text may hold. -/
def isAllowed (c : Char) : Bool :=
  let n := c.toNat
  c == '\t' || c == '\n' || c == '\r' || (0x20 ≤ n && n ≤ 0x7E) || n == 0x85 ||
  (0xA0 ≤ n && n ≤ 0xFFFD) || 0x10000 ≤ n

/-! ## Gaps inside a scalar -/

/-- What stands between two pieces of a scalar. -/
inductive Gap
  /-- Blanks on one line. -/
  | inline (blanks : List Char)
  /-- A line break, and the breaks after it; blanks around breaks do not count. -/
  | broken (first more : List Char)
deriving DecidableEq, Repr

namespace Gap

/-- Whether the gap goes over a line's end. -/
def isBroken : Gap → Bool
  | inline _ => false
  | broken .. => true

/-- The gap with one more blank. -/
def addSpace (c : Char) : Gap → Gap
  | inline blanks => inline (blanks ++ [c])
  | broken first more => broken first more

/-- The gap with one more line break. -/
def addBreak (text : List Char) : Gap → Gap
  | inline _ => broken text []
  | broken first more => broken first (more ++ text)

/-- What the gap reads as: one line break is a space, and of several the first is dropped. -/
def fold : Gap → List Char
  | inline blanks => blanks
  | broken first more =>
    if first = ['\n'] then (if more.isEmpty then [' '] else more) else first ++ more

end Gap

/-- Read blanks and breaks into a gap. A tab may not stand where indentation of `indent` columns
is still missing. -/
def readGap (indent : Nat) (gap : Gap) (mark : Mark) : List Char → Option (Gap × Cursor)
  | '\r' :: '\n' :: r => readGap indent (gap.addBreak ['\n']) (mark.nextLine 2) r
  | c :: r =>
    if isSpace c then
      if gap.isBroken && c == '\t' && mark.column < indent then none
      else readGap indent (gap.addSpace c) (mark.pass c) r
    else if isBreak c then
      readGap indent (gap.addBreak (breakText c)) (mark.nextLine c.utf8Size) r
    else some (gap, ⟨mark, c :: r⟩)
  | [] => some (gap, ⟨mark, []⟩)

end LiveLint.Yaml
