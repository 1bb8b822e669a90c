import LiveLint.Proofs.Bytes
import LiveLint.Proofs.Lines
import LiveLint.Workspace.Basic
import Mathlib.Data.Nat.Basic
import Mathlib.Order.Monotone.Defs

/-!
# Numbers of lines

Findings come with line numbers from several sources: the scans of C sources and of configurations
number the pieces of a text between its line feeds, phrases and variables are found at a character,
an editor asks for the line of a byte, and a buffer counts its lines on its own. All of these meet
in one list of markers. `LinesAgree` says that they are one numbering, and `linesAgree` that this is
so for every text, at every byte, also inside a character and past the end.
-/

namespace LiveLint

namespace Text

/-! ## The line of a byte -/

namespace LineTable

/-- The line of a byte is told by the bytes before it. -/
theorem lineOfByte_ofText (text : String) (offset : Nat) :
    (ofText text).lineOfByte offset = ((bytes text).take offset).count feedByte + 1 := by
  rw [bytes_eq_utf8, ← newlinesBefore_eq_count]
  rfl

theorem lineCount_ofText (text : String) :
    (ofText text).lineCount = (bytes text).count feedByte + 1 := by
  rw [bytes_eq_utf8, count_utf8, ← length_splitLines]
  rfl

theorem lineOfByte_mono (text : String) : Monotone (ofText text).lineOfByte := by
  intro first later before
  rw [lineOfByte_ofText, lineOfByte_ofText]
  exact Nat.succ_le_succ ((List.take_prefix_take_left before).sublist.count_le feedByte)

theorem lineOfByte_le_lineCount (text : String) (offset : Nat) :
    (ofText text).lineOfByte offset ≤ (ofText text).lineCount := by
  rw [lineOfByte_ofText, lineCount_ofText]
  exact Nat.succ_le_succ ((List.take_sublist offset (bytes text)).count_le feedByte)

/-- A character is on the line of its first byte. -/
theorem lineOfByte_byteLength_take (text : String) (position : Nat) :
    (ofText text).lineOfByte (byteLength (text.toList.take position)) =
      lineAt text.toList position := by
  rw [lineOfByte_ofText, bytes_eq_utf8, take_utf8, count_utf8, lineAt]

end LineTable

/-! ## What lines say -/

/-- The pieces of a text between its line feeds, numbered from 1. -/
def numberedPieces (text : String) : List (List Char × Nat) :=
  (text.toList.splitOn '\n').zipIdx 1

theorem zipIdx_splitLines (text : String) :
    (splitLines text.toList).zipIdx 1 = numberedPieces text := by
  rw [splitLines_eq_splitOn, numberedPieces]

/-- A line is said without a carriage return, if there is one at its end. -/
def SaidOf (piece said : List Char) : Prop :=
  piece = said ++ ['\r'] ∨ piece = said ∧ piece.getLast? ≠ some '\r'

theorem saidOf_dropReturn (piece : List Char) : SaidOf piece (dropReturn piece) := by
  rw [dropReturn]
  split_ifs with returns
  · left
    obtain ⟨said, rfl⟩ := List.getLast?_eq_some_iff.mp returns
    rw [List.dropLast_concat]
  · exact .inr ⟨rfl, returns⟩

theorem LineTable.lineText?_of_mem {text : String} {piece : List Char} {n : Nat}
    (h : (piece, n) ∈ numberedPieces text) :
    (ofText text).lineText? n = some (dropReturn piece) := by
  rw [← zipIdx_splitLines, ← isLine_iff_mem_zipIdx] at h
  obtain ⟨positive, there⟩ := h
  obtain ⟨n, rfl⟩ := Nat.exists_eq_add_of_le' positive
  exact congrArg (Option.map dropReturn) there

theorem LineTable.lineText?_eq_none {text : String} {n : Nat}
    (outside : n = 0 ∨ (ofText text).lineCount < n) : (ofText text).lineText? n = none := by
  rcases outside with rfl | beyond
  · rfl
  · obtain ⟨n, rfl⟩ := Nat.exists_eq_succ_of_ne_zero (Nat.ne_of_gt (Nat.zero_lt_of_lt beyond))
    exact congrArg (Option.map dropReturn) (List.getElem?_eq_none (Nat.le_of_lt_succ beyond))

end Text

/-! ## One numbering -/

open Text

/-- All the ways to number the lines of a text agree. -/
structure LinesAgree (text : String) (table : LineTable) : Prop where
  /-- A line is a piece between line feeds, and there is one more than line feeds. -/
  counted : (numberedPieces text).map Prod.snd = List.range' 1 table.lineCount ∧
    table.lineCount = (bytes text).count feedByte + 1
  /-- A buffer counts the lines of its text alike. -/
  buffered : ∀ d : Buffer, d.text = text → d.lineCount = table.lineCount
  /-- The lines of a configuration are the numbered pieces. -/
  lexed : (Buildconf.Line.ofText text.toList).length = table.lineCount ∧
    (Buildconf.Line.ofText text.toList).map (fun line => (line.raw, line.number)) =
      numberedPieces text
  /-- The lines of a C source that are checked one by one are the numbered pieces. -/
  scanned : CSource.layoutFindings text.toList =
    (numberedPieces text).flatMap fun (line, n) => CSource.lineFindings n line
  /-- The line of a byte has all the line feeds before that byte in front of it. -/
  located : ∀ offset, table.lineOfByte offset =
    1 + ((bytes text).take (min offset (bytes text).length)).count feedByte
  monotone : Monotone table.lineOfByte
  inside : ∀ offset, 1 ≤ table.lineOfByte offset ∧ table.lineOfByte offset ≤ table.lineCount
  /-- What is found at a character has the line of the first byte of that character. -/
  placed : ∀ position, lineAt text.toList position =
    table.lineOfByte (byteLength (text.toList.take position))
  /-- A line says what its piece says. -/
  said : ∀ piece n, (piece, n) ∈ numberedPieces text →
    ∃ said, table.lineText? n = some said ∧ SaidOf piece said
  unsaid : ∀ n, n = 0 ∨ table.lineCount < n → table.lineText? n = none
  /-- A number that no line has is taken for one that a line has. -/
  nearest : ∀ n, (1 ≤ table.nearestLine n ∧ table.nearestLine n ≤ table.lineCount) ∧
    (1 ≤ n → n ≤ table.lineCount → table.nearestLine n = n)

theorem map_snd_numberedPieces (text : String) :
    (numberedPieces text).map Prod.snd = List.range' 1 (LineTable.ofText text).lineCount := by
  rw [← zipIdx_splitLines, List.zipIdx_map_snd]
  rfl

theorem map_ofText (text : String) :
    (Buildconf.Line.ofText text.toList).map (fun line => (line.raw, line.number)) =
      numberedPieces text := by
  rw [Buildconf.Line.ofText, List.map_map, zipIdx_splitLines]
  exact List.map_id _

theorem layoutFindings_eq_flatMap (text : String) :
    CSource.layoutFindings text.toList =
      (numberedPieces text).flatMap fun (line, n) => CSource.lineFindings n line := by
  rw [CSource.layoutFindings, zipIdx_splitLines]

/-- **There is one numbering of the lines of a text**, whichever way they are counted. -/
theorem linesAgree (text : String) : LinesAgree text (.ofText text) where
  counted := ⟨map_snd_numberedPieces text, LineTable.lineCount_ofText text⟩
  buffered := by
    rintro d rfl
    rfl
  lexed := ⟨Buildconf.Line.length_ofText text.toList, map_ofText text⟩
  scanned := layoutFindings_eq_flatMap text
  located := by
    intro offset
    rw [LineTable.lineOfByte_ofText, Nat.add_comm, ← List.take_eq_take_min]
  monotone := LineTable.lineOfByte_mono text
  inside offset := ⟨Nat.le_add_left 1 _, LineTable.lineOfByte_le_lineCount text offset⟩
  placed position := (LineTable.lineOfByte_byteLength_take text position).symm
  said piece n h := ⟨dropReturn piece, LineTable.lineText?_of_mem h, saidOf_dropReturn piece⟩
  unsaid _ := LineTable.lineText?_eq_none
  nearest n := ⟨LineTable.nearestLine_le _ n, LineTable.nearestLine_of_mem⟩

/-- A letter of two bytes, both kinds of line breaks, and a carriage return inside a line. -/
example : (List.range 8).map (LineTable.ofText "é\r\n\rb").lineOfByte = [1, 1, 1, 1, 2, 2, 2, 2] ∧
    (LineTable.ofText "é\r\n\rb").lineText? 1 = some ['é'] ∧
    (LineTable.ofText "é\r\n\rb").lineText? 2 = some ['\r', 'b'] := by
  decide +kernel

end LiveLint
