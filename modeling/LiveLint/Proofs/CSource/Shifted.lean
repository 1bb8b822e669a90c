import LiveLint.Proofs.CSource.Reflow

/-!
# What is found at corresponding places

The checks of the whole text find the same in two texts whose places correspond: the same phrases
stand in both, the same variables are declared and used as often, and what is told about a place is
told about the corresponding line (`shapeFindings_shifted`, `includeFindings_shifted`,
`variableFindings_shifted`, `callFindings_shifted`). The checks that go line by line are with the
lines in `LiveLint.Proofs.CSource.Layout`.
-/

namespace LiveLint.CSource

variable {r : Nat → Nat → Prop}

/-- The same finding on corresponding lines, or about no line on both sides. What is said is the
same, but for a missing semicolon, where the number of the line is told. -/
structure Finding.Shifted (r : Nat → Nat → Prop) (f f' : Finding) : Prop where
  rule : f.rule = f'.rule
  line : Option.Rel r f.line f'.line
  message : f.rule ≠ .noSemicolon → f.message = f'.message

/-- A finding about the whole source is about the same in any other. -/
theorem Finding.Shifted.of_line_eq_none {f : Finding} (unanchored : f.line = none) :
    f.Shifted r f := by
  refine ⟨rfl, ?_, fun _ => rfl⟩
  rw [unanchored]
  exact .none

theorem reportIf_shifted {f f' : Finding} (condition : Bool) (h : f.Shifted r f') :
    List.Forall₂ (Finding.Shifted r) (reportIf condition f) (reportIf condition f') := by
  cases condition with
  | true => exact .cons h .nil
  | false => exact .nil

theorem reportIf_unanchored {f : Finding} (condition : Bool) (unanchored : f.line = none) :
    List.Forall₂ (Finding.Shifted r) (reportIf condition f) (reportIf condition f) :=
  reportIf_shifted condition (.of_line_eq_none unanchored)

section Alike

variable {cs cs' : List Char}

/-! ## Phrases -/

section Phrase

variable {p : Phrase}

theorem find?_startsAtPlace_alike (firm : p.isFirm = true)
    (h : List.Forall₂ (Place.Alike r) (places cs) (places cs')) :
    Option.Rel (Place.Alike r) ((places cs).find? p.startsAtPlace)
      ((places cs').find? p.startsAtPlace) :=
  find?_forall₂ h fun _ _ alike => alike.startsAtPlace_eq firm

/-- The same phrases stand in both texts. -/
theorem standsIn_alike (firm : p.isFirm = true)
    (h : List.Forall₂ (Place.Alike r) (places cs) (places cs')) :
    p.standsIn cs = p.standsIn cs' := by
  rw [Phrase.standsIn_eq firm, Phrase.standsIn_eq firm]
  exact isSome_eq_of_optionRel (find?_startsAtPlace_alike firm h)

end Phrase

/-- The phrases that the checks look for stand in both texts or in none. -/
theorem standsIn_scanned_alike (h : List.Forall₂ (Place.Alike r) (places cs) (places cs')) :
    ∀ p ∈ scanned, p.standsIn cs = p.standsIn cs' :=
  fun p hp => standsIn_alike (isFirm_of_mem_scanned p hp) h

theorem includesHeader_alike (h : List.Forall₂ (Place.Alike r) (places cs) (places cs'))
    {header : String} (known : header ∈ ["stdio.h", "stdlib.h", "string.h"]) :
    includesHeader cs header = includesHeader cs' header := by
  have firm : ∀ header ∈ ["stdio.h", "stdlib.h", "string.h"],
      (Phrase.includes header).isFirm = true := by decide
  exact standsIn_alike (firm header known) h

/-- The first call of a function stands on corresponding lines. -/
theorem firstCallLine_shifted {name : String} (firm : (Phrase.call name).isFirm = true)
    (h : List.Forall₂ (Place.Alike r) (places cs) (places cs')) :
    Option.Rel r (firstCallLine cs name) (firstCallLine cs' name) := by
  rw [firstCallLine, firstCallLine, Phrase.map_lineAt_find? firm, Phrase.map_lineAt_find? firm]
  exact map_optionRel (find?_startsAtPlace_alike firm h) fun _ _ alike => alike.line

/-! ## The checks of the whole text -/

theorem count_alike {c : Char} (solid : Text.isBlank c = false)
    (h : List.Forall₂ (Place.Alike r) (places cs) (places cs')) : cs.count c = cs'.count c := by
  rw [count_eq_countP_places solid, count_eq_countP_places solid]
  refine countP_eq_of_forall₂ h ?_
  intro place place' alike
  have opened : ∀ {cs : List Char}, Text.opensBlank cs = true → (cs.head? == some c) = false := by
    intro cs opens
    cases cs with
    | nil => rfl
    | cons d cs => simp [Text.ne_of_isBlank opens solid]
  rcases alike.opensBlank_or with same | ⟨opens, opens'⟩
  · rw [same]
  · rw [opened opens, opened opens']

theorem shapeFindings_shifted (h : List.Forall₂ (Place.Alike r) (places cs) (places cs')) :
    List.Forall₂ (Finding.Shifted r) (shapeFindings cs) (shapeFindings cs') := by
  have blank : Text.isAllBlank cs = Text.isAllBlank cs' := by
    rw [isAllBlank_eq, isAllBlank_eq, isEmpty_eq_of_forall₂ h]
  have stands := standsIn_scanned_alike h
  unfold scanned at stands
  unfold shapeFindings definesMain calls
  rw [blank, count_alike (by decide) h, count_alike (by decide) h]
  simp only [stands, List.mem_cons, true_or, or_true]
  refine List.rel_append ?_ (reportIf_unanchored _ rfl)
  refine List.rel_append ?_ (reportIf_unanchored _ rfl)
  exact List.rel_append (reportIf_unanchored _ rfl) (reportIf_unanchored _ rfl)

theorem includeFindings_shifted (h : List.Forall₂ (Place.Alike r) (places cs) (places cs')) :
    List.Forall₂ (Finding.Shifted r) (includeFindings cs) (includeFindings cs') := by
  have stands := standsIn_scanned_alike h
  unfold scanned at stands
  unfold includeFindings calls
  simp only [stands, includesHeader_alike h, List.mem_cons, true_or, or_true]
  refine List.rel_append ?_ (reportIf_unanchored _ rfl)
  refine List.rel_append ?_ (reportIf_unanchored _ rfl)
  exact List.rel_append (reportIf_unanchored _ rfl) (reportIf_unanchored _ rfl)

theorem wordPlaces_alike (h : List.Forall₂ (Place.Alike r) (places cs) (places cs')) :
    List.Forall₂ (Place.Alike r) (wordPlaces cs) (wordPlaces cs') :=
  filter_forall₂ h fun _ _ alike => alike.startsWord_eq

/-- The same variables are unused. -/
theorem variableFindings_shifted (h : List.Forall₂ (Place.Alike r) (places cs) (places cs')) :
    List.Forall₂ (Finding.Shifted r) (variableFindings cs) (variableFindings cs') := by
  have words := wordPlaces_alike h
  have names : List.Forall₂ (SameName r) ((wordPlaces cs).filterMap Place.declares?)
      ((wordPlaces cs').filterMap Place.declares?) :=
    List.rel_filterMap (fun _ _ alike => alike.declares?_rel) words
  have unused : ∀ x y, SameName r x y →
      isUnusedAt (wordPlaces cs) x.1 = isUnusedAt (wordPlaces cs') y.1 := by
    intro x y same
    have often := countP_eq_of_forall₂ words (p := (·.word == x.1.toList))
      (q := (·.word == x.1.toList)) fun _ _ alike => by rw [alike.word_eq]
    rw [← same.1, isUnusedAt, often, isUnusedAt]
  rw [variableFindings_eq, variableFindings_eq]
  refine List.rel_map ?_ (filter_forall₂ names unused)
  rintro ⟨name, n⟩ ⟨name', n'⟩ ⟨same, line⟩
  obtain rfl : name = name' := same
  exact ⟨rfl, .some line, fun _ => rfl⟩

theorem callFindings_shifted (h : List.Forall₂ (Place.Alike r) (places cs) (places cs')) :
    List.Forall₂ (Finding.Shifted r) (callFindings cs) (callFindings cs') := by
  have first : Option.Rel r (firstCallLine cs "printf") (firstCallLine cs' "printf") :=
    firstCallLine_shifted (by decide) h
  have unended : (Finding.unendedOutput (firstCallLine cs "printf")).Shifted r
      (.unendedOutput (firstCallLine cs' "printf")) := ⟨rfl, first, fun _ => rfl⟩
  have unflushed : (Finding.unflushedOutput (firstCallLine cs "printf")).Shifted r
      (.unflushedOutput (firstCallLine cs' "printf")) := ⟨rfl, first, fun _ => rfl⟩
  have stands := standsIn_scanned_alike h
  unfold scanned at stands
  unfold callFindings definesMain calls
  simp only [stands, List.mem_cons, true_or, or_true]
  refine List.rel_append ?_ (reportIf_unanchored _ rfl)
  refine List.rel_append ?_ (reportIf_shifted _ unflushed)
  refine List.rel_append ?_ (reportIf_unanchored _ rfl)
  refine List.rel_append ?_ (reportIf_unanchored _ rfl)
  refine List.rel_append ?_ (reportIf_unanchored _ rfl)
  refine List.rel_append ?_ (reportIf_unanchored _ rfl)
  exact List.rel_append (reportIf_shifted _ unended) (reportIf_unanchored _ rfl)

end Alike

end LiveLint.CSource
