import LiveLint.Proofs.Buildconf.LineText

/-!
# The grammar of lines

What a trimmed line of each kind is, said without reading it: `LineKind.Form` has one constructor
for each kind but plain text, and plain text is what has no form. A line has at most one form
(`ofTrimmed_of_form`), and it is read as the kind whose form it has (`ofTrimmed_eq_iff`), so that
the grammar says all that there is to say about `LineKind.ofLine`.
-/

namespace LiveLint.Buildconf

/-! ## Parts of lines -/

theorem isIdentChar_of_isNameStart {c : Char} (h : isNameStart c = true) :
    isIdentChar c = true := by
  rw [isNameStart, Bool.or_eq_true] at h
  simp only [isIdentChar, Char.isAlphanum, Bool.or_eq_true]
  tauto

theorem isIdentChar_of_isBlank {c : Char} (h : Text.isBlank c = true) : isIdentChar c = false := by
  by_contra inside
  rw [isBlank_of_isIdentChar (Bool.not_eq_false _ ▸ inside)] at h
  cases h

theorem behind_iff {after : List Char} :
    (after.isEmpty || startsBlank after) = true ↔ ∀ c ∈ after.head?, Text.isBlank c = true := by
  cases after <;> simp [startsBlank]

/-- Version 4 is asked for by the digit, with blanks before it. -/
theorem asksVersionFour_iff {after : List Char} :
    asksVersionFour after = true ↔
      ∃ gap, gap ≠ [] ∧ Text.isAllBlank gap = true ∧ after = gap ++ ['4'] := by
  rw [asksVersionFour, Bool.and_eq_true, beq_iff_eq]
  constructor
  · rintro ⟨opens, version⟩
    obtain ⟨gap, blank, apart⟩ := Text.trimStart_append_blank after
    rw [version] at apart
    refine ⟨gap, ?_, List.all_eq_true.mpr blank, apart⟩
    rintro rfl
    rw [apart] at opens
    exact absurd opens (by decide)
  · rintro ⟨gap, some, blank, rfl⟩
    refine ⟨?_, Text.trimStart_append_of_blank (List.all_eq_true.mp blank) ['4']⟩
    cases gap with
    | nil => exact absurd rfl some
    | cons b gap => exact (Bool.and_eq_true_iff.mp blank).1

theorem name?_eq_iff {cs : List Char} {name : Option String} :
    name? cs = name ↔ ∀ n, name = some n ↔ n.toList = cs ∧ isIdentifier cs = true := by
  rw [name?]
  constructor
  · rintro rfl n
    by_cases ident : isIdentifier cs = true
    · rw [if_pos ident, Option.some.injEq, and_iff_left ident, ← String.toList_inj,
        String.toList_ofList, eq_comm]
    · rw [if_neg ident]
      exact iff_of_false (Option.some_ne_none n).symm fun both => ident both.2
  · intro h
    split
    · next ident => exact ((h _).mpr ⟨String.toList_ofList, ident⟩).symm
    · next ident =>
      cases name with
      | none => rfl
      | some n => exact absurd ((h n).mp rfl).2 ident

/-- What stands between the tag of an opener and its bracket: nothing, or a blank and at least one
more character. -/
structure IsMiddle (middle : List Char) : Prop where
  inside : ']' ∉ middle
  apart : middle = [] ∨ ∃ b c more, middle = b :: c :: more ∧ Text.isBlank b = true

theorem IsMiddle.reads {middle : List Char} (h : IsMiddle middle) :
    (middle.isEmpty || (startsBlank middle && 2 ≤ middle.length)) = true := by
  rcases h.apart with rfl | ⟨b, c, more, rfl, blank⟩
  · rfl
  · simp [startsBlank, blank]

theorem apart_of_reads {middle : List Char}
    (h : (middle.isEmpty || (startsBlank middle && 2 ≤ middle.length)) = true) :
    middle = [] ∨ ∃ b c more, middle = b :: c :: more ∧ Text.isBlank b = true := by
  match middle, h with
  | [], _ => exact .inl rfl
  | [b], h => simp at h
  | b :: c :: more, h =>
    have blank : Text.isBlank b = true := by simpa [startsBlank] using h
    exact .inr ⟨b, c, more, rfl, blank⟩

theorem run_to_bracket {middle : List Char} (inside : ']' ∉ middle) (rest : List Char) :
    Text.Run (· != ']') middle (']' :: rest) := by
  refine ⟨fun c hc => bne_iff_ne.mpr fun same => inside (same ▸ hc), ?_⟩
  rintro c ⟨⟩
  rfl

/-- A tag ends where the middle starts, or else at the bracket. -/
theorem IsMiddle.ends {middle rest : List Char} (h : IsMiddle middle) :
    ∀ c ∈ (middle ++ ']' :: rest).head?, isIdentChar c = false := by
  rcases h.apart with rfl | ⟨b, c, more, rfl, blank⟩
  · rintro d ⟨⟩
    rfl
  · rintro d ⟨⟩
    exact isIdentChar_of_isBlank blank

namespace LineKind

/-! ## The grammar -/

/-- A trimmed line of the kind. Tags and names are as long as they can be. -/
inductive Form : LineKind → List Char → Prop
  | blank : Form .blank []
  | comment (note) : Form .comment (';' :: ';' :: note)
  /-- A header is valid if it says `!muf`, one blank or more, and `4`. -/
  | header {valid after}
      (asks : valid = true ↔
        ∃ gap, gap ≠ [] ∧ Text.isAllBlank gap = true ∧ after = gap ++ ['4']) :
      Form (.header valid) ('!' :: 'm' :: 'u' :: 'f' :: after)
  | closer : Form .closer ['.', '.']
  /-- What stands behind the bracket of an opener is of no account. -/
  | opener {tag middle name} (rest) (tagged : tag ≠ [])
      (run : Text.Run isIdentChar tag (middle ++ ']' :: rest)) (between : IsMiddle middle)
      (named : ∀ n, name = some n ↔
        n.toList = Text.trim middle ∧ isIdentifier (Text.trim middle) = true) :
      Form (.opener (String.ofList tag) name) ('[' :: (tag ++ (middle ++ ']' :: rest)))
  | directive {c name after} (first : isNameStart c = true)
      (run : Text.Run isIdentChar name after)
      (behind : ∀ b ∈ after.head?, Text.isBlank b = true) :
      Form (.directive (String.ofList (c :: name)) (String.ofList (Text.trim after)))
        ('.' :: c :: (name ++ after))

/-- The kind is the one that the grammar gives to a trimmed line. -/
def Describes (kind : LineKind) (t : List Char) : Prop :=
  kind.Form t ∨ kind = .text ∧ ∀ other : LineKind, ¬other.Form t

/-! ## A line is read as what it is -/

section Form

variable {kind : LineKind} {t : List Char} {tag name rest : String} {called : Option String}

theorem opener?_of_form (h : Form (.opener tag called) t) :
    opener? t = some (.opener tag called) := by
  cases h with
  | @opener tag middle _ rest tagged run between named =>
    have bracket := run_to_bracket between.inside rest
    have closed : (middle ++ ']' :: rest).contains ']' = true := by simp
    unfold opener?
    simp only [run.takeWhile_eq, run.dropWhile_eq, bracket.takeWhile_eq, closed, between.reads,
      List.isEmpty_eq_false_iff.mpr tagged, name?_eq_iff.mpr named, Bool.not_true, Bool.or_false,
      Bool.false_eq_true, if_true, if_false]

theorem directive?_of_form (h : Form (.directive name rest) t) :
    directive? t = some (.directive name rest) := by
  cases h with
  | @directive c name after first run behind =>
    have ident : isIdentChar c = true := isIdentChar_of_isNameStart first
    have whole : Text.Run isIdentChar (c :: name) after :=
      ⟨List.forall_mem_cons.mpr ⟨ident, run.all⟩, run.ends⟩
    have taken := whole.takeWhile_eq
    have dropped := whole.dropWhile_eq
    rw [List.cons_append] at taken dropped
    unfold directive?
    simp only [taken, dropped, first, behind_iff.mpr behind, Bool.and_true, if_true]

/-- **A line is read as the kind whose form it has.** -/
theorem ofTrimmed_of_form (h : kind.Form t) : ofTrimmed t = kind := by
  cases h with
  | blank => rfl
  | comment note => rfl
  | @header valid after asks =>
    have same : asksVersionFour after = valid :=
      Bool.eq_iff_iff.mpr (asksVersionFour_iff.trans asks.symm)
    exact congrArg header same
  | closer => rfl
  | opener rest tagged run between named =>
    have read := opener?_of_form (.opener rest tagged run between named)
    unfold ofTrimmed
    rw [read]
    rfl
  | @directive c name after first run behind =>
    have read := directive?_of_form (.directive first run behind)
    have other : opener? ('.' :: c :: (name ++ after)) = none := rfl
    -- the name does not begin with a point, so the line is no closer
    have long : '.' :: c :: (name ++ after) ≠ ['.', '.'] := by
      intro same
      rw [(List.cons.inj (List.cons.inj same).2).1] at first
      cases first
    unfold ofTrimmed
    rw [read, other, if_neg long]
    rfl

/-! ## And has the form of what it is read as -/

theorem form_of_opener? (h : opener? t = some kind) : kind.Form t := by
  unfold opener? at h
  split at h
  · next r =>
    dsimp only at h
    split at h
    · cases h
    · next ok =>
      split at h
      · next reads =>
        cases h
        obtain ⟨tagged, closed⟩ : r.takeWhile isIdentChar ≠ [] ∧ ']' ∈ r.dropWhile isIdentChar := by
          simpa using ok
        obtain ⟨middle, rest, behind, inside⟩ := List.eq_append_cons_of_mem closed
        have run := Text.run_takeWhile isIdentChar r
        have bracket := run_to_bracket inside rest
        have whole : r = r.takeWhile isIdentChar ++ (middle ++ ']' :: rest) := by
          rw [← behind, List.takeWhile_append_dropWhile]
        rw [behind, bracket.takeWhile_eq] at reads
        rw [behind] at run
        rw [behind, bracket.takeWhile_eq]
        have named : name? (Text.trim middle) = name? (Text.trim middle) := rfl
        have form := Form.opener rest tagged run ⟨inside, apart_of_reads reads⟩
          (name?_eq_iff.mp named)
        rw [← whole] at form
        exact form
      · cases h
  · cases h

theorem form_of_directive? (h : directive? t = some kind) : kind.Form t := by
  unfold directive? at h
  split at h
  · next c r =>
    dsimp only at h
    split at h
    · next ok =>
      obtain ⟨first, behind⟩ := Bool.and_eq_true_iff.mp ok
      have ident : isIdentChar c = true := isIdentChar_of_isNameStart first
      rw [List.takeWhile_cons_of_pos ident, List.dropWhile_cons_of_pos ident] at h
      rw [List.dropWhile_cons_of_pos ident] at behind
      cases h
      have form : Form (.directive (String.ofList (c :: r.takeWhile isIdentChar))
          (String.ofList (Text.trim (r.dropWhile isIdentChar))))
          ('.' :: c :: (r.takeWhile isIdentChar ++ r.dropWhile isIdentChar)) :=
        .directive first (Text.run_takeWhile isIdentChar r) (behind_iff.mp behind)
      rw [List.takeWhile_append_dropWhile] at form
      exact form
    · cases h
  · cases h

theorem form_ofTrimmed (t : List Char) : ofTrimmed t = .text ∨ (ofTrimmed t).Form t := by
  unfold ofTrimmed
  split_ifs with empty comment header closer
  · rw [List.isEmpty_iff.mp empty]
    exact .inr .blank
  · obtain ⟨note, rfl⟩ := List.isPrefixOf_iff_prefix.mp comment
    exact .inr (.comment note)
  · obtain ⟨after, rfl⟩ := List.isPrefixOf_iff_prefix.mp header
    exact .inr (.header asksVersionFour_iff)
  · rw [closer]
    exact .inr .closer
  · cases opens : opener? t with
    | some kind => exact .inr (form_of_opener? opens)
    | none =>
      cases directs : directive? t with
      | some kind => exact .inr (form_of_directive? directs)
      | none => exact .inl rfl

/-- **A trimmed line is read as the kind that the grammar gives to it.** -/
theorem ofTrimmed_eq_iff : ofTrimmed t = kind ↔ kind.Describes t := by
  constructor
  · rintro rfl
    by_cases formed : ∃ other : LineKind, other.Form t
    · obtain ⟨other, form⟩ := formed
      rw [ofTrimmed_of_form form]
      exact .inl form
    · have none : ∀ other : LineKind, ¬other.Form t := not_exists.mp formed
      exact .inr ⟨(form_ofTrimmed t).resolve_right (none _), none⟩
  · rintro (form | ⟨rfl, none⟩)
    · exact ofTrimmed_of_form form
    · exact (form_ofTrimmed t).resolve_right (none _)

end Form

/-- The name of an opener is an identifier. -/
theorem Form.isIdentifier {tag name : String} {t : List Char}
    (h : Form (.opener tag (some name)) t) : isIdentifier name.toList = true := by
  cases h with
  | opener rest tagged run between named =>
    obtain ⟨same, ident⟩ := (named name).mp rfl
    rw [same]
    exact ident

end LineKind

end LiveLint.Buildconf
