import LiveLint.Text.Bytes

/-!
# Lines

A text is cut into lines at line feeds and nowhere else: a carriage return stays in its line, and
so do the separators that other tools break at. A text that ends in a line feed has an empty last
line, and the empty text has one line. Lines are numbered from 1.

`LineTable` is what an editor asks about one snapshot of a buffer: which line holds a byte, what
a line says, how long it is. Offsets are byte offsets in UTF-8; lengths count characters.
-/

namespace LiveLint.Text

/-- The pieces between line feeds, in order. -/
def splitLines (cs : List Char) : List (List Char) :=
  cs.foldr (fun c lines => if c = '\n' then [] :: lines else lines.modifyHead (c :: ·)) [[]]

@[simp] theorem splitLines_nil : splitLines [] = [[]] := rfl

@[simp] theorem splitLines_newline (cs : List Char) :
    splitLines ('\n' :: cs) = [] :: splitLines cs := by
  simp [splitLines]

theorem splitLines_cons {c : Char} (h : c ≠ '\n') (cs : List Char) :
    splitLines (c :: cs) = (splitLines cs).modifyHead (c :: ·) := by
  simp [splitLines, h]

theorem splitLines_ne_nil (cs : List Char) : splitLines cs ≠ [] := by
  induction cs with
  | nil => simp
  | cons c r ih =>
    by_cases h : c = '\n'
    · simp [h]
    · cases hs : splitLines r with
      | nil => exact absurd hs ih
      | cons l ls => simp [splitLines_cons h, hs]

/-- There is one line more than there are line feeds. -/
theorem length_splitLines (cs : List Char) : (splitLines cs).length = cs.count '\n' + 1 := by
  induction cs with
  | nil => rfl
  | cons c r ih =>
    by_cases h : c = '\n'
    · simp [h, ih]
    · simp [splitLines_cons h, ih, h]

/-- The line of the character at position `n`, counted in characters. -/
def lineAt (cs : List Char) (n : Nat) : Nat :=
  (cs.take n).count '\n' + 1

/-- How many line feeds start before byte `offset`. -/
def newlinesBefore : List Char → Nat → Nat
  | [], _ => 0
  | _, 0 => 0
  | c :: r, offset + 1 =>
    (if c = '\n' then 1 else 0) + newlinesBefore r (offset + 1 - c.utf8Size)

/-- The line without one carriage return at its end. -/
def dropReturn (line : List Char) : List Char :=
  if line.getLast? = some '\r' then line.dropLast else line

/-- One snapshot of a buffer, cut into lines. -/
structure LineTable where
  /-- The whole text. -/
  text : List Char
  /-- Its lines, without their line feeds. -/
  lines : List (List Char) := splitLines text
  lines_eq : lines = splitLines text := by rfl

namespace LineTable

/-- The table of a text. -/
def ofText (text : String) : LineTable :=
  { text := text.toList }

/-- The number of lines, at least one. -/
def lineCount (table : LineTable) : Nat :=
  table.lines.length

/-- The length in bytes. -/
def byteSize (table : LineTable) : Nat :=
  byteLength table.text

/-- The line that holds the byte at `offset`; past the end, the last line. -/
def lineOfByte (table : LineTable) (offset : Nat) : Nat :=
  newlinesBefore table.text offset + 1

/-- The nearest line there is. -/
def nearestLine (table : LineTable) (line : Nat) : Nat :=
  max 1 (min line table.lineCount)

/-- What a line says, without its line break; nothing for a line that is not there. -/
def lineText? (table : LineTable) : Nat → Option (List Char)
  | 0 => none
  | n + 1 => table.lines[n]?.map dropReturn

/-- The number of characters of a line, zero for a line that is not there. -/
def lineLength (table : LineTable) (line : Nat) : Nat :=
  ((table.lineText? line).map List.length).getD 0

theorem lineCount_pos (table : LineTable) : 0 < table.lineCount := by
  rw [lineCount, table.lines_eq, length_splitLines]
  omega

theorem nearestLine_of_mem {table : LineTable} {line : Nat} (h : 1 ≤ line)
    (h' : line ≤ table.lineCount) : table.nearestLine line = line := by
  unfold nearestLine
  omega

theorem nearestLine_le (table : LineTable) (line : Nat) :
    1 ≤ table.nearestLine line ∧ table.nearestLine line ≤ table.lineCount := by
  have := table.lineCount_pos
  unfold nearestLine
  omega

end LineTable

end LiveLint.Text
