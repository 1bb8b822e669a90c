import LiveLint.Text.Blank
import LiveLint.Text.Digit
import LiveLint.Text.Lines
import LiveLint.Text.WordChar
import Mathlib.Data.List.Basic

/-!
# Lines and the blanks around them

What the proofs need to know of the lines of a text: that they join to the text again, that they
hold its characters without the line feeds, that blanks are neither word characters nor digits, and
that the blanks at the ends of a line are all that trimming takes away.
-/

namespace LiveLint.Text

/-! ## Lines -/

theorem splitLines_eq_splitOn (cs : List Char) : splitLines cs = cs.splitOn '\n' := by
  induction cs with
  | nil => rfl
  | cons c r ih =>
    rw [List.splitOn_cons_eq_if_modifyHead, ← ih]
    by_cases h : c = '\n'
    · rw [h, splitLines_newline]
      rfl
    · rw [splitLines_cons h, if_neg (by simpa using h)]

/-- The lines of a text, joined again. -/
theorem intercalate_splitLines (cs : List Char) : ['\n'].intercalate (splitLines cs) = cs := by
  rw [splitLines_eq_splitOn, List.intercalate_splitOn]

/-- The first line of a text is what stands before its first line feed. -/
theorem splitLines_append {line : List Char} (uncut : '\n' ∉ line) (rest : List Char) :
    splitLines (line ++ '\n' :: rest) = line :: splitLines rest := by
  induction line with
  | nil => exact splitLines_newline rest
  | cons c line ih =>
    rw [List.mem_cons, not_or] at uncut
    rw [List.cons_append, splitLines_cons (Ne.symm uncut.1), ih uncut.2]
    rfl

/-- A line has characters of the text and no line feed. -/
theorem mem_of_mem_splitLines {cs line : List Char} (h : line ∈ splitLines cs) :
    ∀ c ∈ line, c ∈ cs ∧ c ≠ '\n' := by
  induction cs generalizing line with
  | nil =>
    intro c hc
    rw [List.mem_singleton.mp h] at hc
    cases hc
  | cons first r ih =>
    have later : ∀ {l}, l ∈ splitLines r → ∀ c ∈ l, c ∈ first :: r ∧ c ≠ '\n' := by
      intro l hl c hc
      exact ⟨List.mem_cons_of_mem _ (ih hl c hc).1, (ih hl c hc).2⟩
    by_cases feed : first = '\n'
    · rw [feed, splitLines_newline] at h
      rcases List.mem_cons.mp h with rfl | h
      · intro c hc
        cases hc
      · exact later h
    · rw [splitLines_cons feed] at h
      -- only the first line is longer than before
      cases hr : splitLines r with
      | nil => exact absurd hr (splitLines_ne_nil r)
      | cons l ls =>
        rw [hr] at h later
        rcases List.mem_cons.mp h with rfl | h
        · intro c hc
          rcases List.mem_cons.mp hc with rfl | hc
          · exact ⟨List.mem_cons_self, feed⟩
          · exact later List.mem_cons_self c hc
        · exact later (List.mem_cons_of_mem _ h)

/-- The text of lines that each follow a line break. -/
def behind (lines : List (List Char)) : List Char :=
  lines.flatMap ('\n' :: ·)

theorem behind_cons (line : List Char) (lines : List (List Char)) :
    behind (line :: lines) = '\n' :: line ++ behind lines := rfl

theorem behind_splitLines (cs : List Char) : behind (splitLines cs) = '\n' :: cs := by
  induction cs with
  | nil => rfl
  | cons c r ih =>
    by_cases feed : c = '\n'
    · rw [feed, splitLines_newline, behind_cons, ih]
      rfl
    · rw [splitLines_cons feed]
      cases cut : splitLines r with
      | nil => exact absurd cut (splitLines_ne_nil r)
      | cons line lines =>
        rw [cut, behind_cons, List.cons_append, List.cons_inj_right] at ih
        rw [List.modifyHead_cons, behind_cons, List.cons_append, List.cons_append, ih]

/-! ## Lines by number -/

/-- What is left of the line that a text opens in the middle of. -/
def restOfLine (cs : List Char) : List Char :=
  cs.takeWhile (· != '\n')

/-- Line `n` of a text, counted from 1, is there and says `line`. -/
def IsLine (cs : List Char) (n : Nat) (line : List Char) : Prop :=
  1 ≤ n ∧ (splitLines cs)[n - 1]? = some line

theorem isLine_iff_mem_zipIdx {cs line : List Char} {n : Nat} :
    IsLine cs n line ↔ (line, n) ∈ (splitLines cs).zipIdx 1 :=
  List.mk_mem_zipIdx_iff_le_and_getElem?_sub.symm

theorem IsLine.le_length {cs line : List Char} {n : Nat} (h : IsLine cs n line) :
    n ≤ (splitLines cs).length := by
  obtain ⟨positive, there⟩ := h
  obtain ⟨inside, _⟩ := List.getElem?_eq_some_iff.mp there
  omega

theorem exists_splitLines_eq (cs : List Char) :
    ∃ later, splitLines cs = restOfLine cs :: later := by
  induction cs with
  | nil => exact ⟨[], rfl⟩
  | cons c r ih =>
    by_cases feed : c = '\n'
    · rw [feed, splitLines_newline]
      exact ⟨_, rfl⟩
    · obtain ⟨later, cut⟩ := ih
      have longer : restOfLine (c :: r) = c :: restOfLine r :=
        List.takeWhile_cons_of_pos (bne_iff_ne.mpr feed)
      rw [splitLines_cons feed, cut, longer]
      exact ⟨later, rfl⟩

/-- The line that a place stands on has what is left of it at its end. -/
theorem exists_isLine (before cs : List Char) :
    ∃ front, IsLine (before ++ cs) (before.count '\n' + 1) (front ++ restOfLine cs) := by
  show ∃ front, 1 ≤ _ ∧ (splitLines (before ++ cs))[before.count '\n']? =
    some (front ++ restOfLine cs)
  induction before with
  | nil =>
    obtain ⟨later, cut⟩ := exists_splitLines_eq cs
    refine ⟨[], Nat.le_add_left 1 _, ?_⟩
    rw [List.nil_append, cut]
    rfl
  | cons c before ih =>
    obtain ⟨front, _, there⟩ := ih
    by_cases feed : c = '\n'
    · refine ⟨front, Nat.le_add_left 1 _, ?_⟩
      rw [feed, List.cons_append, splitLines_newline, List.count_cons_self, List.getElem?_cons_succ,
        there]
    · rw [List.count_cons_of_ne (by simpa using feed), List.cons_append, splitLines_cons feed,
        List.getElem?_modifyHead, there]
      -- only the first line is longer than before
      split
      · exact ⟨c :: front, Nat.le_add_left 1 _, rfl⟩
      · exact ⟨front, Nat.le_add_left 1 _, rfl⟩

/-- What a text opens with is on one line if no line feed is in it. -/
theorem isPrefix_restOfLine {word cs : List Char} (h : word <+: cs) (inside : '\n' ∉ word) :
    word <+: restOfLine cs := by
  obtain ⟨rest, rfl⟩ := h
  rw [restOfLine, List.takeWhile_append_of_pos]
  · exact List.prefix_append _ _
  · intro c hc
    rw [bne_iff_ne]
    rintro rfl
    exact inside hc

/-! ## Letters, blanks, words and digits -/

theorem isUpper_eq (c : Char) : c.isUpper = (decide ('A' ≤ c) && decide (c ≤ 'Z')) := by
  rw [← Bool.decide_and]
  rfl

theorem isLower_eq (c : Char) : c.isLower = (decide ('a' ≤ c) && decide (c ≤ 'z')) := rfl

theorem isAlpha_eq (c : Char) : c.isAlpha = (c.isUpper || c.isLower) := rfl

/-- No character is both. -/
theorem isWord_of_isBlank {c : Char} (h : isBlank c = true) : isWord c = false := by
  rw [isBlank, CodeRanges.covers_iff] at h
  obtain ⟨blank, hblank, low, high⟩ := h
  unfold isWord
  split
  · rename_i ascii
    -- in ASCII, blanks come before all word characters
    have few : ∀ r ∈ blankRanges, r.1 < 128 → r.2 < 33 := by decide
    have below : ∀ n ∈ List.range 33, isAsciiWord (Char.ofNat n) = false := by decide
    have code := few blank hblank (by omega)
    rw [← Char.ofNat_toNat c]
    exact below c.toNat (List.mem_range.mpr (by omega))
  · have apart : ∀ r ∈ blankRanges, ∀ s ∈ wordRanges, r.2 < s.1 ∨ s.2 < r.1 := by
      decide +kernel
    rw [← Bool.not_eq_true, CodeRanges.covers_iff]
    rintro ⟨word, hword, low', high'⟩
    have := apart blank hblank word hword
    omega

theorem isBlank_of_isWord {c : Char} (h : isWord c = true) : isBlank c = false := by
  by_contra blank
  rw [Bool.not_eq_false] at blank
  rw [isWord_of_isBlank blank] at h
  cases h

/-- A digit of ASCII is a word character, and those beyond are apart from the blanks. -/
theorem isDigit_of_isBlank {c : Char} (h : isBlank c = true) : isDigit c = false := by
  have word := isWord_of_isBlank h
  rw [isBlank, CodeRanges.covers_iff] at h
  obtain ⟨blank, hblank, low, high⟩ := h
  unfold isDigit
  split
  · rename_i ascii
    rw [isWord, if_pos ascii, isAsciiWord, Char.isAlphanum] at word
    simp only [Bool.or_eq_false_iff] at word
    exact word.1.2
  · have apart : ∀ r ∈ blankRanges, ∀ s ∈ digitRanges, r.2 < s.1 ∨ s.2 < r.1 := by
      decide +kernel
    rw [← Bool.not_eq_true, CodeRanges.covers_iff]
    rintro ⟨digit, hdigit, low', high'⟩
    have := apart blank hblank digit hdigit
    omega

theorem isBlank_of_isDigit {c : Char} (h : isDigit c = true) : isBlank c = false := by
  rw [← Bool.not_eq_true]
  intro blank
  rw [isDigit_of_isBlank blank] at h
  cases h

/-! ## Blanks around a line -/

theorem trimStart_append_of_blank {gap : List Char} (h : ∀ c ∈ gap, isBlank c = true)
    (cs : List Char) : trimStart (gap ++ cs) = trimStart cs :=
  List.dropWhile_append_of_pos h

theorem trimEnd_append_of_blank {gap : List Char} (h : ∀ c ∈ gap, isBlank c = true)
    (cs : List Char) : trimEnd (cs ++ gap) = trimEnd cs := by
  have blank : ∀ c ∈ gap.reverse, isBlank c = true := fun c hc => h c (List.mem_reverse.mp hc)
  rw [trimEnd, List.reverse_append, List.dropWhile_append_of_pos blank, trimEnd]

/-- Blanks at the ends of a line are trimmed away, whatever stands between them. -/
theorem trim_append_of_blank {gap gap' : List Char} (h : ∀ c ∈ gap, isBlank c = true)
    (h' : ∀ c ∈ gap', isBlank c = true) (cs : List Char) :
    trim (gap ++ cs ++ gap') = trim cs := by
  rw [trim, List.append_assoc, trimStart_append_of_blank h, trim]
  cases start : trimStart cs with
  | nil =>
    -- nothing but blanks, so the start of the line reaches to its end
    have all : trimStart gap' = [] := isAllBlank_iff_trimStart.mp (List.all_eq_true.mpr h')
    rw [trimStart, List.dropWhile_append, ← trimStart, start, List.isEmpty_nil, if_pos rfl,
      ← trimStart, all]
  | cons c r =>
    rw [trimStart, List.dropWhile_append, ← trimStart, start, List.isEmpty_cons,
      if_neg Bool.false_ne_true, trimEnd_append_of_blank h']

/-- However the blanks at its ends are, a line says the same. -/
theorem trim_of_gaps {gap gap' : List Char} (blank : isAllBlank (gap ++ gap') = true)
    (core : List Char) : trim (gap ++ core ++ gap') = trim core := by
  have ends := List.all_eq_true.mp blank
  exact trim_append_of_blank (fun c hc => ends c (List.mem_append_left gap' hc))
    (fun c hc => ends c (List.mem_append_right gap hc)) core

/-- What is trimmed away at the end is blank. -/
theorem exists_gap_trimEnd (cs : List Char) :
    ∃ gap, isAllBlank gap = true ∧ cs = trimEnd cs ++ gap := by
  obtain ⟨gap, blank, back⟩ := trimStart_append_blank cs.reverse
  refine ⟨gap.reverse, ?_, ?_⟩
  · rw [isAllBlank, List.all_reverse]
    exact List.all_eq_true.mpr blank
  · have whole := congrArg List.reverse back
    rw [List.reverse_reverse, List.reverse_append] at whole
    exact whole

/-- Without its indentation, a line is what it says with blanks behind. -/
theorem exists_gap_trim (line : List Char) :
    ∃ gap, isAllBlank gap = true ∧ trimStart line = trim line ++ gap :=
  exists_gap_trimEnd (trimStart line)

/-- A line is what it says with blanks around it. -/
theorem exists_gaps_trim (line : List Char) :
    ∃ gap gap', isAllBlank gap = true ∧ isAllBlank gap' = true ∧
      line = gap ++ (trim line ++ gap') := by
  obtain ⟨gap, blank, front⟩ := trimStart_append_blank line
  obtain ⟨gap', blank', start⟩ := exists_gap_trim line
  refine ⟨gap, gap', List.all_eq_true.mpr blank, blank', ?_⟩
  rw [← start]
  exact front

theorem isAllBlank_append {gap gap' : List Char} :
    isAllBlank (gap ++ gap') = true ↔ isAllBlank gap = true ∧ isAllBlank gap' = true := by
  rw [isAllBlank, List.all_append, Bool.and_eq_true, isAllBlank, isAllBlank]

theorem isAllBlank_iff_trim {line : List Char} : isAllBlank line = true ↔ trim line = [] := by
  constructor
  · intro blank
    rw [trim, isAllBlank_iff_trimStart.mp blank]
    rfl
  · intro none
    obtain ⟨gap, gap', blank, blank', whole⟩ := exists_gaps_trim line
    rw [none, List.nil_append] at whole
    rw [whole]
    exact isAllBlank_append.mpr ⟨blank, blank'⟩

end LiveLint.Text
