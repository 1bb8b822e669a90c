import LiveLint.Buildconf.Check.Header
import LiveLint.Proofs.Buildconf.ArgumentText
import LiveLint.Proofs.Buildconf.Layout

/-!
# Lines as they are written

A line of a written document is the header, an opener, a closer or a directive, and each of them
has one plain form: one space between tag and name, one space between a directive's name and the
rest. `LineKind.written` is that form, and reading it back gives the kind, whatever blanks stand
in front (`ofLine_written`). The blanks inside a written line are the spaces it is made with and
those of the rest of a directive, which is all that line feeds and tabs can hide in
(`eq_space_or_mem_rest`).
-/

namespace LiveLint

namespace Text

/-! ## Trimmed texts -/

/-- Neither end of a text is blank. -/
structure Trimmed (cs : List Char) : Prop where
  start : ∀ c ∈ cs.head?, isBlank c = false
  stop : ∀ c ∈ cs.getLast?, isBlank c = false

theorem trimStart_eq_self {cs : List Char} (h : ∀ c ∈ cs.head?, isBlank c = false) :
    trimStart cs = cs := by
  cases cs with
  | nil => rfl
  | cons c r => exact trimStart_of_not_blank (h c rfl)

theorem Trimmed.trim_eq {cs : List Char} (h : Trimmed cs) : trim cs = cs := by
  have stop : ∀ c ∈ cs.reverse.head?, isBlank c = false := by
    rw [List.head?_reverse]
    exact h.stop
  rw [trim, trimStart_eq_self h.start, trimEnd, ← trimStart, trimStart_eq_self stop,
    List.reverse_reverse]

/-- A text is trimmed if it starts and stops like trimmed texts. -/
theorem Trimmed.join {first middle last : List Char} (h : Trimmed first) (h' : Trimmed last)
    (some : first ≠ []) (some' : last ≠ []) : Trimmed (first ++ middle ++ last) := by
  constructor
  · rw [List.append_assoc, List.head?_append_of_ne_nil _ some]
    exact h.start
  · rw [List.getLast?_append_of_ne_nil _ some']
    exact h'.stop

theorem trim_space_cons {cs : List Char} (h : Trimmed cs) : trim (' ' :: cs) = cs := by
  have start : trimStart (' ' :: cs) = trimStart cs := rfl
  rw [trim, start, ← trim, h.trim_eq]

theorem trimmed_of_solid {cs : List Char} (solid : ∀ c ∈ cs, isBlank c = false) : Trimmed cs :=
  ⟨fun c hc => solid c (List.mem_of_mem_head? hc),
    fun c hc => solid c (List.mem_of_mem_getLast? hc)⟩

theorem trimmed_singleton {c : Char} (h : isBlank c = false) : Trimmed [c] := by
  constructor <;> simp [h]

end Text

namespace Buildconf

/-! ## Characters of identifiers -/

theorem isBlank_of_isIdentChar {c : Char} (h : isIdentChar c = true) : Text.isBlank c = false := by
  have code : 33 ≤ c.toNat ∧ c.toNat ≤ 126 := by
    simp only [isIdentChar, Char.isAlphanum, Text.isAlpha_eq, Text.isUpper_eq, Text.isLower_eq,
      Char.isDigit, Char.le_def, UInt32.le_iff_toNat_le, ge_iff_le, Bool.or_eq_true,
      Bool.and_eq_true, decide_eq_true_eq, beq_iff_eq] at h
    rcases h with (((h | h) | h) | rfl) | rfl
    · exact ⟨Nat.le_trans (by decide) h.1, Nat.le_trans h.2 (by decide)⟩
    · exact ⟨Nat.le_trans (by decide) h.1, Nat.le_trans h.2 (by decide)⟩
    · exact ⟨Nat.le_trans (by decide) h.1, Nat.le_trans h.2 (by decide)⟩
    · decide
    · decide
  have beyond : ∀ r ∈ Text.blankRanges, r.2 < 33 ∨ 126 < r.1 := by decide
  rw [← Bool.not_eq_true, Text.isBlank, Text.CodeRanges.covers_iff]
  rintro ⟨r, hr, low, high⟩
  have := beyond r hr
  omega

theorem isIdentifier_iff {cs : List Char} :
    isIdentifier cs = true ↔ cs ≠ [] ∧ ∀ c ∈ cs, isIdentChar c = true := by
  simp [isIdentifier]

theorem trimmed_of_isIdentifier {cs : List Char} (h : isIdentifier cs = true) :
    Text.Trimmed cs :=
  Text.trimmed_of_solid fun c hc => isBlank_of_isIdentChar ((isIdentifier_iff.mp h).2 c hc)

theorem not_mem_of_isIdentifier {cs : List Char} {c : Char} (ok : isIdentifier cs = true)
    (other : isIdentChar c = false) : c ∉ cs := by
  intro hc
  rw [(isIdentifier_iff.mp ok).2 c hc] at other
  cases other

/-- Whether a text is the name of a directive. -/
def isDirectiveName (cs : List Char) : Bool :=
  cs.head?.any isNameStart && cs.all isIdentChar

namespace LineKind

/-! ## The written form -/

/-- The kinds of lines that are written down. -/
def Writable : LineKind → Prop
  | header valid => valid = true
  | opener tag name =>
    isIdentifier tag.toList = true ∧ ∀ n ∈ name, isIdentifier n.toList = true
  | closer => True
  | directive name rest =>
    isDirectiveName name.toList = true ∧ rest.toList ≠ [] ∧ Text.Trimmed rest.toList ∧
      '\n' ∉ rest.toList
  | blank | comment | text => False

/-- What stands between the tag of an opener and its bracket. -/
def middle : Option String → List Char
  | none => []
  | some name => ' ' :: name.toList

/-- The line as it is written. -/
def written : LineKind → List Char
  | header _ => headerText
  | opener tag name => '[' :: (tag.toList ++ (middle name ++ [']']))
  | closer => ['.', '.']
  | directive name rest => '.' :: (name.toList ++ ' ' :: rest.toList)
  | blank | comment | text => []

section Written

variable {kind : LineKind} {tag name rest : String} {called : Option String}

/-- A name behind the tag of an opener has no bracket. -/
theorem middle_ne_bracket (named : ∀ n ∈ called, isIdentifier n.toList = true) :
    ∀ c ∈ middle called, (c != ']') = true := by
  intro c hc
  cases called with
  | none => cases hc
  | some n =>
    rcases List.mem_cons.mp hc with rfl | hc
    · decide
    · have ident := (isIdentifier_iff.mp (named n rfl)).2 c hc
      refine bne_iff_ne.mpr ?_
      rintro rfl
      revert ident
      decide

theorem opener?_written (tagged : isIdentifier tag.toList = true)
    (named : ∀ n ∈ called, isIdentifier n.toList = true) :
    opener? (written (opener tag called)) = some (opener tag called) := by
  obtain ⟨nonempty, ident⟩ := isIdentifier_iff.mp tagged
  -- the tag ends at a space or at the bracket
  have stop : ∀ c ∈ (middle called ++ [']']).head?, isIdentChar c = false := by
    cases called <;> simp [middle] <;> decide
  have bracket : ∀ c ∈ [']'].head?, (c != ']') = false := by simp
  have inside := Text.takeWhile_append_stop (middle_ne_bracket named) bracket
  have closed : (middle called ++ [']']).contains ']' = true := by simp
  unfold opener?
  simp only [written, Text.takeWhile_append_stop ident stop, Text.dropWhile_append_stop ident stop,
    inside, closed, List.isEmpty_eq_false_iff.mpr nonempty, String.ofList_toList]
  cases called with
  | none => simp [middle, name?, isIdentifier]
  | some n =>
    have identifier := named n rfl
    have blank : startsBlank (' ' :: n.toList) = true := by rfl
    have nonempty := (isIdentifier_iff.mp identifier).1
    have trimmed := Text.trim_space_cons (trimmed_of_isIdentifier identifier)
    simp only [middle, List.isEmpty_cons, blank, trimmed, name?, identifier, if_true,
      String.ofList_toList, Bool.false_or, Bool.true_and, Bool.not_true]
    have long : 2 ≤ (' ' :: n.toList).length := by
      have := List.length_pos_iff.mpr nonempty
      rw [List.length_cons]
      omega
    exact if_pos (decide_eq_true long)

theorem directive?_written (named : isDirectiveName name.toList = true)
    (trimmed : Text.Trimmed rest.toList) :
    directive? (written (directive name rest)) = some (directive name rest) := by
  rw [isDirectiveName, Bool.and_eq_true, List.all_eq_true] at named
  obtain ⟨start, ident⟩ := named
  have stop : ∀ c ∈ (' ' :: rest.toList).head?, isIdentChar c = false := by
    intro c hc
    cases hc
    decide
  have taken := Text.takeWhile_append_stop ident stop
  have dropped := Text.dropWhile_append_stop ident stop
  have blank : startsBlank (' ' :: rest.toList) = true := by rfl
  rw [written]
  cases letters : name.toList with
  | nil =>
    rw [letters] at start
    cases start
  | cons c r =>
    rw [letters, List.head?_cons, Option.any_some] at start
    rw [letters, List.cons_append] at taken dropped
    rw [List.cons_append, directive?]
    simp only [taken, dropped, start, blank, Bool.or_true, Bool.and_true, if_true,
      Text.trim_space_cons trimmed, ← letters, String.ofList_toList]

theorem ofTrimmed_written (ok : kind.Writable) : ofTrimmed kind.written = kind := by
  cases kind with
  | header valid =>
    rw [Writable] at ok
    rw [ok]
    rfl
  | closer => rfl
  | opener tag called =>
    have read := opener?_written ok.1 ok.2
    unfold ofTrimmed
    rw [read]
    simp [written]
  | directive name rest =>
    have read := directive?_written ok.1 ok.2.2.1
    have other : opener? (written (directive name rest)) = none := rfl
    -- the name does not begin with a dot, so the line is no closer
    have long : written (directive name rest) ≠ ['.', '.'] := by
      rw [written]
      intro same
      have start := ok.1
      rw [List.cons_inj_right] at same
      cases letters : name.toList with
      | nil => simp [letters] at same
      | cons c r =>
        rw [letters, List.cons_append] at same
        rw [letters, isDirectiveName, (List.cons.inj same).1] at start
        cases start
    unfold ofTrimmed
    rw [read, other, if_neg long]
    simp [written]
  | blank => cases ok
  | comment => cases ok
  | text => cases ok

theorem trimmed_written (ok : kind.Writable) : Text.Trimmed kind.written := by
  cases kind with
  | header valid => exact ⟨by rintro _ ⟨⟩; rfl, by rintro _ ⟨⟩; rfl⟩
  | closer => exact ⟨by rintro _ ⟨⟩; rfl, by rintro _ ⟨⟩; rfl⟩
  | opener tag called =>
    have shape : written (opener tag called) = ['['] ++ (tag.toList ++ middle called) ++ [']'] := by
      simp [written]
    rw [shape]
    exact .join (Text.trimmed_singleton rfl) (Text.trimmed_singleton rfl) (by simp) (by simp)
  | directive name rest =>
    have shape :
        written (directive name rest) = ['.'] ++ (name.toList ++ [' ']) ++ rest.toList := by
      simp [written]
    rw [shape]
    exact .join (Text.trimmed_singleton rfl) ok.2.2.1 (by simp) ok.2.1
  | blank => cases ok
  | comment => cases ok
  | text => cases ok

/-- **A written line is read as the kind it was written for**, however far it is indented. -/
theorem ofLine_written {gap : List Char} (ok : kind.Writable)
    (h : ∀ c ∈ gap, Text.isBlank c = true) : ofLine (gap ++ kind.written) = kind := by
  have trimmed : Text.trim (gap ++ kind.written) = kind.written := by
    rw [Text.trim, Text.trimStart_append_of_blank h, ← Text.trim, (trimmed_written ok).trim_eq]
  rw [ofLine, trimmed, ofTrimmed_written ok]

/-- The blanks of a written line are the spaces of its form and what the rest of a directive
holds. -/
theorem eq_space_or_mem_rest (ok : kind.Writable) {c : Char} (h : c ∈ kind.written)
    (blank : Text.isBlank c = true) :
    c = ' ' ∨ ∃ name rest, kind = directive name rest ∧ c ∈ rest.toList := by
  have solid : ∀ {cs : List Char}, cs.all isIdentChar = true → c ∉ cs := by
    intro cs all hc
    rw [isBlank_of_isIdentChar (List.all_eq_true.mp all c hc)] at blank
    cases blank
  have other : ∀ {d : Char}, Text.isBlank d = false → c ≠ d := by
    rintro d seen rfl
    rw [seen] at blank
    cases blank
  cases kind with
  | header valid =>
    have spaces : ∀ d ∈ headerText, Text.isBlank d = true → d = ' ' := by decide
    exact Or.inl (spaces c h blank)
  | opener tag called =>
    left
    rcases List.mem_cons.mp h with h | h
    · exact absurd h (other rfl)
    rcases List.mem_append.mp h with h | h
    · exact absurd h (solid (Bool.and_eq_true_iff.mp ok.1).2)
    rcases List.mem_append.mp h with h | h
    · cases called with
      | none => cases h
      | some n =>
        rcases List.mem_cons.mp h with h | h
        · exact h
        · exact absurd h (solid (Bool.and_eq_true_iff.mp (ok.2 n rfl)).2)
    · exact absurd (List.mem_singleton.mp h) (other rfl)
  | closer =>
    have dots : ∀ d ∈ ['.', '.'], d = '.' := by decide
    exact absurd (dots c h) (other rfl)
  | directive name rest =>
    rcases List.mem_cons.mp h with h | h
    · exact absurd h (other rfl)
    rcases List.mem_append.mp h with h | h
    · exact absurd h (solid (Bool.and_eq_true_iff.mp ok.1).2)
    rcases List.mem_cons.mp h with h | h
    · exact Or.inl h
    · exact Or.inr ⟨name, rest, rfl, h⟩
  | blank => cases h
  | comment => cases h
  | text => cases h

end Written

end LineKind

end Buildconf

end LiveLint
