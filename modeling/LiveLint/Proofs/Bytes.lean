import LiveLint.Text.Lines
import Mathlib.Data.List.Basic

/-!
# Bytes of a text

A text is kept as characters, but places in it are often told in bytes: by what an editor asks of a
`LineTable`, by candidates, by patterns. `utf8` is the bytes themselves, and they are those that a
string is stored as (`bytes_eq_utf8`).

In the bytes of a text a line feed is one byte, and no byte of another character is the same
(`count_utf8EncodeChar_take`). So line feeds can be counted in the bytes, also up to the middle of
a character (`newlinesBefore_eq_count`). Columns can be counted in characters or in bytes: the bytes
before a character grow with the characters.
-/

namespace LiveLint.Text

/-! ## The encoding -/

/-- The bytes of a text in UTF-8. -/
def utf8 (cs : List Char) : List UInt8 :=
  cs.flatMap String.utf8EncodeChar

@[simp] theorem utf8_cons (c : Char) (r : List Char) :
    utf8 (c :: r) = String.utf8EncodeChar c ++ utf8 r := rfl

theorem utf8_append (cs ds : List Char) : utf8 (cs ++ ds) = utf8 cs ++ utf8 ds :=
  List.flatMap_append

/-- The bytes that a string is stored as. -/
def bytes (text : String) : List UInt8 :=
  text.toByteArray.data.toList

theorem bytes_eq_utf8 (text : String) : bytes text = utf8 text.toList := by
  rw [bytes, ← String.utf8Encode_toList]
  exact List.toList_data_toByteArray

theorem length_utf8 (cs : List Char) : (utf8 cs).length = byteLength cs := by
  induction cs with
  | nil => rfl
  | cons c r ih =>
    rw [utf8_cons, List.length_append, String.length_utf8EncodeChar, ih, byteLength_cons]

theorem byteLength_toList (text : String) : byteLength text.toList = text.utf8ByteSize := by
  rw [← length_utf8, ← bytes_eq_utf8, bytes, Array.length_toList, ByteArray.size_data,
    String.size_toByteArray]

/-- The bytes of the first characters come first. -/
theorem take_utf8 (cs : List Char) (n : Nat) :
    (utf8 cs).take (byteLength (cs.take n)) = utf8 (cs.take n) := by
  have parted : utf8 cs = utf8 (cs.take n) ++ utf8 (cs.drop n) := by
    rw [← utf8_append, List.take_append_drop]
  rw [parted, ← length_utf8, List.take_left]

/-! ## Line feeds among bytes -/

/-- The byte of a line feed. -/
def feedByte : UInt8 := 10

/-- No other character has the byte of a line feed. -/
theorem feedByte_not_mem {c : Char} (other : c ≠ '\n') : feedByte ∉ String.utf8EncodeChar c := by
  have code : c.val.toNat ≠ 10 := fun same => other (Char.ext (UInt32.toNat_inj.mp same))
  have away : ∀ n, n % 256 ≠ 10 → feedByte ≠ UInt8.ofNat n := fun n different same =>
    different (congrArg UInt8.toNat same).symm
  simp only [String.utf8EncodeChar]
  split_ifs
  · exact fun mem => away _ (by omega) (List.mem_singleton.mp mem)
  -- of more bytes than one, each has its highest bit set
  all_goals simp only [List.mem_cons, List.not_mem_nil, or_false, not_or]
  · exact ⟨away _ (by omega), away _ (by omega)⟩
  · exact ⟨away _ (by omega), away _ (by omega), away _ (by omega)⟩
  · exact ⟨away _ (by omega), away _ (by omega), away _ (by omega), away _ (by omega)⟩

/-- As soon as a byte of a character is taken, it is known whether it is a line feed. -/
theorem count_utf8EncodeChar_take (c : Char) (n : Nat) :
    ((String.utf8EncodeChar c).take (n + 1)).count feedByte = if c = '\n' then 1 else 0 := by
  split_ifs with feed
  · have alone : String.utf8EncodeChar '\n' = [feedByte] := by decide
    rw [feed, alone, List.take_succ_cons, List.take_nil, List.count_singleton_self]
  · exact List.count_eq_zero.mpr fun mem => feedByte_not_mem feed (List.mem_of_mem_take mem)

/-- **Line feeds before a byte** are counted in the bytes before it. -/
theorem newlinesBefore_eq_count (cs : List Char) (offset : Nat) :
    newlinesBefore cs offset = ((utf8 cs).take offset).count feedByte := by
  induction cs generalizing offset with
  | nil => simp [newlinesBefore, utf8]
  | cons c r ih =>
    cases offset with
    | zero => rfl
    | succ offset =>
      rw [newlinesBefore, utf8_cons, List.take_append, List.count_append,
        count_utf8EncodeChar_take, String.length_utf8EncodeChar, ih]

theorem count_utf8 (cs : List Char) : (utf8 cs).count feedByte = cs.count '\n' := by
  induction cs with
  | nil => rfl
  | cons c r ih =>
    have whole : (String.utf8EncodeChar c).count feedByte = if c = '\n' then 1 else 0 := by
      rw [← count_utf8EncodeChar_take c (String.utf8EncodeChar c).length,
        List.take_of_length_le (Nat.le_succ _)]
    rw [utf8_cons, List.count_append, whole, ih, List.count_cons, Nat.add_comm]
    simp only [beq_iff_eq]

/-! ## Columns by characters and by bytes -/

/-- How many bytes come before the character at a column. -/
def bytesBefore (line : List Char) (column : Nat) : Nat :=
  byteLength (line.take column)

/-- How many characters start before a byte. -/
def columnOfByte : List Char → Nat → Nat
  | [], _ => 0
  | _, 0 => 0
  | c :: r, byte + 1 => columnOfByte r (byte + 1 - c.utf8Size) + 1

section Columns

variable {line : List Char} {m n : Nat}

theorem bytesBefore_cons (c : Char) (r : List Char) (n : Nat) :
    bytesBefore (c :: r) (n + 1) = c.utf8Size + bytesBefore r n := rfl

theorem bytesBefore_lt (before : m < n) (inside : n ≤ line.length) :
    bytesBefore line m < bytesBefore line n := by
  induction line generalizing m n with
  | nil => exact absurd before (by simp at inside; omega)
  | cons c r ih =>
    obtain ⟨n, rfl⟩ := Nat.exists_eq_succ_of_ne_zero (Nat.ne_of_gt (Nat.zero_lt_of_lt before))
    have size := c.utf8Size_pos
    rw [Nat.succ_eq_add_one, bytesBefore_cons]
    cases m with
    | zero =>
      show 0 < _
      omega
    | succ m =>
      have later := ih (Nat.lt_of_succ_lt_succ before) (Nat.le_of_succ_le_succ inside)
      rw [bytesBefore_cons]
      omega

theorem bytesBefore_lt_iff (inside : m ≤ line.length) (inside' : n ≤ line.length) :
    bytesBefore line m < bytesBefore line n ↔ m < n := by
  refine ⟨fun less => ?_, fun before => bytesBefore_lt before inside'⟩
  rcases Nat.lt_trichotomy m n with before | rfl | behind
  · exact before
  · exact absurd less (Nat.lt_irrefl _)
  · exact absurd (bytesBefore_lt behind inside) (Nat.lt_asymm less)

/-- The characters that start before the byte of a column are those before the column. -/
theorem columnOfByte_bytesBefore (inside : n ≤ line.length) :
    columnOfByte line (bytesBefore line n) = n := by
  induction line generalizing n with
  | nil =>
    obtain rfl : n = 0 := Nat.le_zero.mp inside
    rfl
  | cons c r ih =>
    cases n with
    | zero => rfl
    | succ n =>
      have size := c.utf8Size_pos
      obtain ⟨byte, same⟩ : ∃ byte, c.utf8Size + bytesBefore r n = byte + 1 :=
        ⟨c.utf8Size + bytesBefore r n - 1, by omega⟩
      rw [bytesBefore_cons, same, columnOfByte, ← same, Nat.add_sub_cancel_left,
        ih (Nat.le_of_succ_le_succ inside)]

end Columns

end LiveLint.Text
