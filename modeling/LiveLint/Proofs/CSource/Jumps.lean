import LiveLint.Proofs.CSource.Literals
import LiveLint.Proofs.CSource.WholeWords

/-!
# Statements that run on

A statement runs on where a jump stands right behind a word that does not lead into it (`RunsOn`).
The check goes through the words in pairs and a word that ended a pair starts no other, so it looks
at fewer pairs than there are. One that it leaves out shares its first word with the pair before.
That pair is a find of its own, unless its first word is `else` or `do`. So a line is found
just if some jump runs on behind a word that is not itself led into (`isRunOn_iff`), and a second
jump behind `else` and a first one goes unnoticed (`unnoticed_behind_else`).
-/

namespace LiveLint.CSource

open Text (HasNeighbours IsWordText)

/-! ## Pairs among runs -/

/-- The runs behind a word make it one of a pair: they are blanks and a jump word. -/
structure IsPair (gap jump : List Char) : Prop where
  blank : Text.isAllBlank gap = true
  jumps : String.ofList jump ∈ jumpWords

/-- Of the runs before a jump, the last two lead into it. -/
def LeadsIn (front : List (List Char)) : Prop :=
  ∃ front' lead gap, front = front' ++ [lead, gap] ∧ String.ofList lead ∈ leadWords ∧
    Text.isAllBlank gap = true

/-- Somewhere among the runs a jump runs on behind a word that is not led into. -/
def RunOnAmong (rs : List (List Char)) : Prop :=
  ∃ front word gap jump back, rs = front ++ word :: gap :: jump :: back ∧ IsPair gap jump ∧
    String.ofList word ∉ leadWords ∧ ¬ (String.ofList word ∈ jumpWords ∧ LeadsIn front)

section Among

variable {word gap jump run : List Char} {front rest rs : List (List Char)}

theorem isWordText_of_mem (h : String.ofList word ∈ jumpWords ++ leadWords) : IsWordText word := by
  have words : ∀ w ∈ jumpWords ++ leadWords,
      w.toList ≠ [] ∧ ∀ c ∈ w.toList, Text.isWord c = true := by decide
  have shown := words _ h
  rw [String.toList_ofList] at shown
  exact ⟨shown.1, shown.2⟩

theorem isWordText_of_jump (jumps : String.ofList jump ∈ jumpWords) : IsWordText jump :=
  isWordText_of_mem (List.mem_append_left _ jumps)

theorem isWordText_of_lead (leads : String.ofList word ∈ leadWords) : IsWordText word :=
  isWordText_of_mem (List.mem_append_right _ leads)

theorem not_lead_of_jump {w : String} (jumps : w ∈ jumpWords) : w ∉ leadWords := by
  revert w
  decide

/-- What leads into a jump also does so behind more runs. -/
theorem LeadsIn.cons (h : LeadsIn front) : LeadsIn (run :: front) := by
  obtain ⟨front', lead, gap, rfl, leads, blank⟩ := h
  exact ⟨run :: front', lead, gap, rfl, leads, blank⟩

/-- What leads into a jump is the first two runs, or stands behind the first one. -/
theorem LeadsIn.of_cons (h : LeadsIn (run :: front)) :
    (∃ gap, front = [gap] ∧ String.ofList run ∈ leadWords ∧ Text.isAllBlank gap = true) ∨
      LeadsIn front := by
  obtain ⟨front', lead, gap, whole, leads, blank⟩ := h
  cases front' with
  | nil =>
    cases whole
    exact .inl ⟨gap, rfl, leads, blank⟩
  | cons _ front' =>
    cases whole
    exact .inr ⟨front', lead, gap, rfl, leads, blank⟩

theorem not_leadsIn_nil : ¬ LeadsIn [] := by
  rintro ⟨front', lead, gap, whole, -⟩
  exact absurd whole.symm (List.append_ne_nil_of_right_ne_nil _ (List.cons_ne_nil _ _))

/-- Where the first word is in no pair, it makes no difference. -/
theorem runOnAmong_cons_iff
    (none : ∀ gap jump later, rs = gap :: jump :: later → ¬ IsPair gap jump) :
    RunOnAmong (run :: rs) ↔ RunOnAmong rs := by
  constructor
  · rintro ⟨front, word, gap, jump, back, whole, pair, bare, unled⟩
    rcases List.cons_eq_append_iff.mp whole with ⟨rfl, same⟩ | ⟨front', rfl, later⟩
    · cases same
      exact absurd pair (none _ _ _ rfl)
    · exact ⟨front', word, gap, jump, back, later, pair, bare, fun led => unled ⟨led.1, led.2.cons⟩⟩
  · rintro ⟨front, word, gap, jump, back, rfl, pair, bare, unled⟩
    refine ⟨run :: front, word, gap, jump, back, rfl, pair, bare, ?_⟩
    rintro ⟨jumps, led⟩
    rcases led.of_cons with ⟨gap', rfl, -, blank⟩ | later
    · exact none _ _ _ rfl ⟨blank, jumps⟩
    · exact unled ⟨jumps, later⟩

/-- Behind a pair, the scan goes on with the runs that follow it. So it passes over the pair that
the jump begins, but that one counts only where this one is a find. -/
theorem runOnAmong_pair_iff (pair : IsPair gap jump) :
    RunOnAmong (word :: gap :: jump :: rest) ↔
      String.ofList word ∉ leadWords ∨ RunOnAmong rest := by
  constructor
  · rintro ⟨front, w, g, j, back, whole, pair', bare, unled⟩
    rcases front with _ | ⟨_, _ | ⟨_, _ | ⟨_, front⟩⟩⟩
    · cases whole
      exact .inl bare
    · cases whole
      exact absurd pair'.blank (isWordText_of_jump pair.jumps).not_blank
    · cases whole
      exact .inl fun leads => unled ⟨pair.jumps, [], word, gap, rfl, leads, pair.blank⟩
    · cases whole
      refine .inr ⟨front, w, g, j, back, rfl, pair', bare, ?_⟩
      exact fun led => unled ⟨led.1, led.2.cons.cons.cons⟩
  · rintro (bare | ⟨front, w, g, j, back, rfl, pair', bare, unled⟩)
    · exact ⟨[], word, gap, jump, rest, rfl, pair, bare, fun led => not_leadsIn_nil led.2⟩
    · refine ⟨word :: gap :: jump :: front, w, g, j, back, rfl, pair', bare, ?_⟩
      rintro ⟨jumps, led⟩
      rcases led.of_cons with ⟨_, whole, -⟩ | led
      · cases whole
      rcases led.of_cons with ⟨_, -, leads, -⟩ | led
      · exact (isWordText_of_lead leads).not_blank pair.blank
      rcases led.of_cons with ⟨_, -, leads, -⟩ | led
      · exact not_lead_of_jump pair.jumps leads
      exact unled ⟨jumps, led⟩

/-- **The pairs that are left out make no difference**, but for those behind a lead word. -/
theorem any_wordsBeforeJumps_iff :
    (wordsBeforeJumps rs).any (· ∉ leadWords) = true ↔ RunOnAmong rs := by
  have isPair_iff : ∀ {gap jump : List Char},
      (Text.isAllBlank gap && decide (String.ofList jump ∈ jumpWords)) = true ↔
        IsPair gap jump := by
    intro gap jump
    rw [Bool.and_eq_true, decide_eq_true_eq]
    constructor
    · rintro ⟨blank, jumps⟩
      exact ⟨blank, jumps⟩
    · rintro ⟨blank, jumps⟩
      exact ⟨blank, jumps⟩
  fun_induction wordsBeforeJumps rs with
  | case1 word gap jump rest pair ih =>
    rw [isPair_iff] at pair
    rw [List.any_cons, Bool.or_eq_true, decide_eq_true_eq, runOnAmong_pair_iff pair]
    exact or_congr_right ih
  | case2 word gap jump rest none ih =>
    rw [isPair_iff] at none
    refine ih.trans (runOnAmong_cons_iff ?_).symm
    rintro _ _ _ ⟨⟩
    exact none
  | case3 rs short =>
    refine ⟨nofun, ?_⟩
    rintro ⟨front, w, g, j, back, rfl, -⟩
    rcases front with _ | ⟨_, _ | ⟨_, _ | ⟨_, _⟩⟩⟩ <;> exact (short _ _ _ _ rfl).elim

end Among

/-! ## Pairs in a text -/

section Text

variable {code before word gap jump : List Char}

/-- In the code, a jump stands right behind another word, which does not lead into it. -/
structure RunsOn (code before word gap jump : List Char) : Prop where
  neighbours : HasNeighbours code before word gap jump
  jumps : String.ofList jump ∈ jumpWords
  bare : String.ofList word ∉ leadWords

/-- The word is itself a jump that the word before it leads into. -/
def IsLedInto (code before word : List Char) : Prop :=
  String.ofList word ∈ jumpWords ∧ ∃ before' lead gap, before = before' ++ (lead ++ gap) ∧
    HasNeighbours code before' lead gap word ∧ String.ofList lead ∈ leadWords

/-- The code has statements that run on where the check can tell. -/
def IsRunOn (code : List Char) : Prop :=
  ∃ before word gap jump, RunsOn code before word gap jump ∧ ¬ IsLedInto code before word

/-- The runs before a word lead into it just if the word before it does. -/
theorem isLedInto_iff {front back : List (List Char)}
    (parts : Text.runs code = front ++ word :: back) :
    IsLedInto code front.flatten word ↔ String.ofList word ∈ jumpWords ∧ LeadsIn front := by
  refine and_congr_right fun jumps => ?_
  constructor
  · rintro ⟨before', lead, gap, whole, neighbours, leads⟩
    obtain ⟨-, blank, front', back', parts', rfl⟩ := Text.hasNeighbours_iff.mp neighbours
    have parts'' : Text.runs code = (front' ++ [lead, gap]) ++ word :: back' := by simp [parts']
    have same : front = front' ++ [lead, gap] := by
      rw [← (Text.runs_flatten_of_append parts).1, whole, ← (Text.runs_flatten_of_append parts'').1]
      simp
    exact ⟨front', lead, gap, same, leads, blank⟩
  · rintro ⟨front', lead, gap, rfl, leads, blank⟩
    have parts' : Text.runs code = front' ++ lead :: gap :: word :: back := by simp [parts]
    refine ⟨front'.flatten, lead, gap, by simp, ?_, leads⟩
    exact Text.hasNeighbours_iff.mpr
      ⟨isWordText_of_jump jumps, blank, front', back, parts', rfl⟩

/-- **The check finds the code that runs on.** -/
theorem isRunOn_iff : (wordsBeforeJumps (Text.runs code)).any (· ∉ leadWords) = true ↔
    IsRunOn code := by
  rw [any_wordsBeforeJumps_iff]
  constructor
  · rintro ⟨front, word, gap, jump, back, parts, pair, bare, unled⟩
    have neighbours := Text.hasNeighbours_iff.mpr
      ⟨isWordText_of_jump pair.jumps, pair.blank, front, back, parts, rfl⟩
    refine ⟨front.flatten, word, gap, jump, ⟨neighbours, pair.jumps, bare⟩, ?_⟩
    rwa [isLedInto_iff parts]
  · rintro ⟨before, word, gap, jump, ⟨neighbours, jumps, bare⟩, unled⟩
    obtain ⟨-, blank, front, back, parts, rfl⟩ := Text.hasNeighbours_iff.mp neighbours
    rw [isLedInto_iff parts] at unled
    exact ⟨front, word, gap, jump, back, parts, ⟨blank, jumps⟩, bare, unled⟩

/-- A character at the end makes no difference if it belongs to no word. -/
theorem isRunOn_concat_iff {c : Char} (other : Text.isWord c = false) :
    IsRunOn (code ++ [c]) ↔ IsRunOn code := by
  have runsOn_iff : ∀ {before word gap jump}, RunsOn (code ++ [c]) before word gap jump ↔
      RunsOn code before word gap jump := by
    intro before word gap jump
    constructor
    · rintro ⟨neighbours, jumps, bare⟩
      exact ⟨(Text.hasNeighbours_concat_iff other).mp neighbours, jumps, bare⟩
    · rintro ⟨neighbours, jumps, bare⟩
      exact ⟨(Text.hasNeighbours_concat_iff other).mpr neighbours, jumps, bare⟩
  simp only [IsRunOn, IsLedInto, runsOn_iff, Text.hasNeighbours_concat_iff other]

end Text

/-! ## The check of a line -/

/-- **A line is found just if its code runs on**: somewhere a jump stands right behind a word other
than `else` and `do`, and that word is not itself a jump right behind one of these two. -/
theorem hasRunOnStatement_iff (line : List Char) :
    ∃ code, (∀ text, IsCode line text ↔ code = text) ∧
      (hasRunOnStatement line = true ↔
        ∃ before word gap jump, RunsOn code before word gap jump ∧ ¬ IsLedInto code before word) :=
  ⟨codeOf line, fun _ => isCode_iff, isRunOn_iff⟩

/-- **A second jump behind `else` goes unnoticed**: it runs on behind the first one, but the first
one is used up by the pair with `else`. -/
theorem unnoticed_behind_else :
    hasRunOnStatement "else break return 0;".toList = false ∧
      IsCode "else break return 0;".toList "else break return 0;".toList ∧
      RunsOn "else break return 0;".toList "else ".toList "break".toList " ".toList
        "return".toList := by
  refine ⟨by decide +kernel, isCode_iff.mpr (by decide +kernel), ?_, by decide, by decide⟩
  rw [Text.hasNeighbours_iff]
  refine ⟨isWordText_of_jump (by decide), by decide, ["else".toList, " ".toList],
    [" ".toList, "0".toList, ";".toList], ?_, rfl⟩
  decide +kernel

end LiveLint.CSource
