import LiveLint.Text.CodeRanges

/-!
# Blank characters and trimming

Blank is the White_Space property of Unicode: the five controls and the space of ASCII, the next
line and no-break space of Latin-1, and the spaces and separators beyond it. The zero-width space
and the byte order mark are not blank. Indentation, the gaps between words and the ends of a line
are all cut by this one class, so `trim` removes a carriage return as it removes an ideographic
space.
-/

namespace LiveLint.Text

/-- The White_Space characters. -/
def blankRanges : CodeRanges :=
  [(0x9, 0xD), (0x20, 0x20), (0x85, 0x85), (0xA0, 0xA0), (0x1680, 0x1680), (0x2000, 0x200A),
   (0x2028, 0x2029), (0x202F, 0x202F), (0x205F, 0x205F), (0x3000, 0x3000)]

/-- A character that separates and is not seen. -/
def isBlank (c : Char) : Bool :=
  blankRanges.covers c

/-- The text without its leading blanks. -/
def trimStart (cs : List Char) : List Char :=
  cs.dropWhile isBlank

/-- The text without its trailing blanks. -/
def trimEnd (cs : List Char) : List Char :=
  (cs.reverse.dropWhile isBlank).reverse

/-- The text without the blanks at either end. -/
def trim (cs : List Char) : List Char :=
  trimEnd (trimStart cs)

/-- Whether nothing but blanks is there. -/
def isAllBlank (cs : List Char) : Bool :=
  cs.all isBlank

/-! ## What trimming leaves -/

@[simp] theorem trimStart_nil : trimStart [] = [] := rfl

@[simp] theorem trimEnd_nil : trimEnd [] = [] := rfl

@[simp] theorem trim_nil : trim [] = [] := rfl

theorem trimStart_append_blank (cs : List Char) :
    ∃ gap, (∀ c ∈ gap, isBlank c = true) ∧ cs = gap ++ trimStart cs := by
  refine ⟨cs.takeWhile isBlank, ?_, (List.takeWhile_append_dropWhile).symm⟩
  induction cs with
  | nil => simp
  | cons c r ih => by_cases h : isBlank c = true <;> simp_all

theorem trimStart_of_not_blank {c : Char} {r : List Char} (h : isBlank c = false) :
    trimStart (c :: r) = c :: r := by
  simp [trimStart, h]

theorem isAllBlank_iff_trimStart {cs : List Char} : isAllBlank cs = true ↔ trimStart cs = [] := by
  induction cs with
  | nil => simp [isAllBlank]
  | cons c r ih =>
    by_cases h : isBlank c = true
    · rw [isAllBlank, List.all_cons, h, Bool.true_and, trimStart, List.dropWhile_cons_of_pos h]
      exact ih
    · simp [isAllBlank, trimStart, h]

theorem length_trimStart_le (cs : List Char) : (trimStart cs).length ≤ cs.length :=
  (List.dropWhile_sublist isBlank).length_le

end LiveLint.Text
