import LiveLint.Proofs.CSource.Words

/-!
# Whole words

A word of a text is whole where no word character stands right before it or right behind it. An
occurrence is known by the text before it: `HasWord cs before word` reads that `word` is whole in
`cs` behind `before`, and `HasNeighbours` that the next word stands behind it with nothing but
blanks between.

The checks of C sources cut a text into runs instead. Both views agree: a word is whole just if it
is one of the runs (`hasWord_iff`), two words are neighbours just if they are runs with a blank run
between (`hasNeighbours_iff`), and a word is one run at most just if it is nowhere else in the text
(`count_runs_le_one_iff`).
-/

namespace LiveLint.Text

/-- The text is a word: it has word characters, and no others. -/
structure IsWordText (word : List Char) : Prop where
  some : word ≠ []
  letters : ∀ c ∈ word, isWord c = true

/-- A whole word of a text that goes on before it and behind it. -/
structure WholeWord (before word behind : List Char) : Prop extends IsWordText word where
  starts : ∀ c ∈ before.getLast?, isWord c = false
  ends : ∀ c ∈ behind.head?, isWord c = false

/-- The text has the whole word behind `before`. -/
def HasWord (cs before word : List Char) : Prop :=
  ∃ behind, cs = before ++ (word ++ behind) ∧ WholeWord before word behind

/-- Behind `before`, the text has two whole words with a gap of blanks between them. -/
structure HasNeighbours (cs before word gap next : List Char) : Prop where
  first : HasWord cs before word
  apart : gap ≠ []
  blank : isAllBlank gap = true
  second : HasWord cs (before ++ (word ++ gap)) next

/-! ## Runs -/

section Runs

variable {cs xs ys : List Char} {front back : List (List Char)}

theorem flatten_runs (cs : List Char) : (runs cs).flatten = cs :=
  List.flatten_splitBy sameRun cs

theorem ne_nil_of_mem_runs {run : List Char} (h : run ∈ runs cs) : run ≠ [] :=
  List.ne_nil_of_mem_splitBy h

/-- No run of the first text goes on in the second. -/
def Apart (xs ys : List Char) : Prop :=
  ∀ c ∈ xs.getLast?, ∀ d ∈ ys.head?, isWord c ≠ isWord d

theorem runs_append_of_apart (h : Apart xs ys) : runs (xs ++ ys) = runs xs ++ runs ys :=
  List.splitBy_append fun c hc d hd => beq_eq_false_iff_ne.mpr (h c hc d hd)

/-- The first runs of a text are those of its beginning, and the others those of the rest. -/
theorem runs_flatten_of_append (h : runs cs = front ++ back) :
    runs front.flatten = front ∧ runs back.flatten = back ∧ Apart front.flatten back.flatten := by
  obtain ⟨-, some, chains, ends⟩ := List.splitBy_eq_iff.mp h
  rw [List.mem_append, not_or] at some
  obtain ⟨endsFront, endsBack, between⟩ := List.isChain_append.mp ends
  refine ⟨List.splitBy_eq_iff.mpr ⟨rfl, some.1, ?_, endsFront⟩,
    List.splitBy_eq_iff.mpr ⟨rfl, some.2, ?_, endsBack⟩, ?_⟩
  · exact fun run mem => chains run (List.mem_append_left _ mem)
  · exact fun run mem => chains run (List.mem_append_right _ mem)
  · -- the last character before is that of the last run, the first one behind that of the next run
    intro c hc d hd
    rcases List.eq_nil_or_concat front with rfl | ⟨_, run, rfl⟩
    · cases hc
    · cases back with
      | nil => cases hd
      | cons run' _ =>
        obtain ⟨there, there', other⟩ := between run (by simp) run' (by simp)
        rw [List.concat_eq_append, List.flatten_append, List.flatten_singleton,
          List.getLast?_append_of_ne_nil _ there, List.getLast?_eq_getLast_of_ne_nil there] at hc
        rw [List.flatten_cons, List.head?_append_of_ne_nil _ there', List.head?_eq_some_head there']
          at hd
        cases hc
        cases hd
        exact beq_eq_false_iff_ne.mp other

/-- All characters of a run are word characters, or none. -/
theorem isWord_eq_of_mem_runs {run : List Char} (h : run ∈ runs cs) {c d : Char} (hc : c ∈ run)
    (hd : d ∈ run) : isWord c = isWord d := by
  induction cs using runs_induction with
  | nil => cases h
  | word xs ys some same stop ih | other xs ys some same stop ih =>
    rw [runs_append some same stop] at h
    rcases List.mem_cons.mp h with rfl | later
    · rw [same c hc, same d hd]
    · exact ih later

/-- A run is a word if one of its characters is. -/
theorem isWordText_of_mem_runs {run : List Char} (h : run ∈ runs cs) {c : Char} (hc : c ∈ run)
    (letter : isWord c = true) : IsWordText run :=
  ⟨ne_nil_of_mem_runs h, fun _ hd => (isWord_eq_of_mem_runs h hd hc).trans letter⟩

end Runs

/-! ## Words among the runs -/

namespace IsWordText

variable {before word behind : List Char}

/-- No word goes on in a word just if no word character stands before it. -/
theorem apart_iff_starts (h : IsWordText word) :
    Apart before (word ++ behind) ↔ ∀ c ∈ before.getLast?, isWord c = false := by
  have first : ∀ d ∈ (word ++ behind).head?, isWord d = true := by
    intro d hd
    rw [List.head?_append_of_ne_nil _ h.some] at hd
    exact h.letters d (List.mem_of_head? hd)
  constructor
  · intro apart c hc
    obtain ⟨d, r, rfl⟩ := List.exists_cons_of_ne_nil h.some
    have other := apart c hc d rfl
    rw [first d rfl] at other
    exact Bool.eq_false_iff.mpr other
  · intro starts c hc d hd
    rw [starts c hc, first d hd]
    exact Bool.false_ne_true

/-- A word goes on in no other just if no word character stands behind it. -/
theorem apart_iff_ends (h : IsWordText word) :
    Apart (before ++ word) behind ↔ ∀ c ∈ behind.head?, isWord c = false := by
  have last : ∀ c ∈ (before ++ word).getLast?, isWord c = true := by
    intro c hc
    rw [List.getLast?_append_of_ne_nil _ h.some] at hc
    exact h.letters c (List.mem_of_getLast? hc)
  constructor
  · intro apart d hd
    have there : before ++ word ≠ [] := List.append_ne_nil_of_right_ne_nil _ h.some
    have shown := List.getLast?_eq_getLast_of_ne_nil there
    have other := apart _ shown d hd
    rw [last _ shown] at other
    exact Bool.eq_false_iff.mpr other.symm
  · intro ends c hc d hd
    rw [last c hc, ends d hd]
    exact Bool.false_ne_true.symm

theorem not_blank (h : IsWordText word) : ¬ isAllBlank word = true := by
  intro blank
  obtain ⟨c, r, rfl⟩ := List.exists_cons_of_ne_nil h.some
  have letter := h.letters c List.mem_cons_self
  rw [isWord_of_isBlank (List.all_eq_true.mp blank c List.mem_cons_self)] at letter
  cases letter

end IsWordText

section Words

variable {cs before word gap next : List Char}

theorem WholeWord.runs_eq {behind : List Char} (h : WholeWord before word behind) :
    runs (before ++ (word ++ behind)) = runs before ++ word :: runs behind := by
  rw [runs_append_of_apart (h.apart_iff_starts.mpr h.starts), runs_append h.some h.letters h.ends]

/-- **A word is whole just if it is one of the runs.** -/
theorem hasWord_iff : HasWord cs before word ↔
    IsWordText word ∧ ∃ front back, runs cs = front ++ word :: back ∧ before = front.flatten := by
  constructor
  · rintro ⟨behind, rfl, whole⟩
    exact ⟨whole.toIsWordText, runs before, runs behind, whole.runs_eq, (flatten_runs before).symm⟩
  · rintro ⟨isWord, front, back, parts, rfl⟩
    have whole : cs = front.flatten ++ (word ++ back.flatten) := by
      rw [← flatten_runs cs, parts, List.flatten_append, List.flatten_cons]
    have parts' : runs cs = (front ++ [word]) ++ back := by
      rw [parts, List.append_assoc, List.singleton_append]
    have starts := (runs_flatten_of_append parts).2.2
    have ends := (runs_flatten_of_append parts').2.2
    rw [List.flatten_cons, isWord.apart_iff_starts] at starts
    rw [List.flatten_append, List.flatten_singleton, isWord.apart_iff_ends] at ends
    exact ⟨back.flatten, whole, isWord, starts, ends⟩

/-- A run before a run of blanks is a word. -/
theorem isWordText_of_gap {front back : List (List Char)}
    (parts : runs cs = front ++ word :: gap :: back) (blank : isAllBlank gap = true) :
    IsWordText word := by
  have mem : word ∈ runs cs := by simp [parts]
  have memGap : gap ∈ runs cs := by simp [parts]
  have parts' : runs cs = (front ++ [word]) ++ gap :: back := by
    rw [parts, List.append_assoc, List.singleton_append]
  obtain ⟨c, r, rfl⟩ := List.exists_cons_of_ne_nil (ne_nil_of_mem_runs memGap)
  have there := ne_nil_of_mem_runs mem
  -- its last character is of the other sort than the blank behind it
  have other : isWord (word.getLast there) ≠ isWord c := by
    refine (runs_flatten_of_append parts').2.2 _ ?_ c rfl
    rw [List.flatten_append, List.flatten_singleton, List.getLast?_append_of_ne_nil _ there]
    exact List.getLast?_eq_getLast_of_ne_nil there
  rw [isWord_of_isBlank (List.all_eq_true.mp blank c List.mem_cons_self)] at other
  exact isWordText_of_mem_runs mem (List.getLast_mem there) (Bool.not_eq_false _ ▸ other)

/-- **Two words are neighbours just if they are runs with a run of blanks between.** -/
theorem hasNeighbours_iff : HasNeighbours cs before word gap next ↔
    IsWordText next ∧ isAllBlank gap = true ∧
      ∃ front back, runs cs = front ++ word :: gap :: next :: back ∧ before = front.flatten := by
  constructor
  · rintro ⟨⟨rest, whole, first⟩, apart, blank, behind, whole', second⟩
    have onward : rest = gap ++ (next ++ behind) := by
      have same := whole.symm.trans whole'
      simpa using same
    have other : ∀ c ∈ gap, isWord c = false := fun c hc =>
      isWord_of_isBlank (List.all_eq_true.mp blank c hc)
    have bound : ∀ c ∈ (next ++ behind).head?, isWord c = true := by
      intro c hc
      rw [List.head?_append_of_ne_nil _ second.some] at hc
      exact second.letters c (List.mem_of_head? hc)
    have gapRun : runs (gap ++ (next ++ behind)) = gap :: runs (next ++ behind) :=
      runs_append apart other bound
    refine ⟨second.toIsWordText, blank, runs before, runs behind, ?_, (flatten_runs before).symm⟩
    rw [whole, first.runs_eq, onward, gapRun,
      runs_append second.some second.letters second.ends]
  · rintro ⟨isWord, blank, front, back, parts, rfl⟩
    have memGap : gap ∈ runs cs := by simp [parts]
    have parts' : runs cs = (front ++ [word, gap]) ++ next :: back := by simp [parts]
    have first : HasWord cs front.flatten word :=
      hasWord_iff.mpr ⟨isWordText_of_gap parts blank, front, gap :: next :: back, parts, rfl⟩
    have second : HasWord cs (front.flatten ++ (word ++ gap)) next :=
      hasWord_iff.mpr ⟨isWord, front ++ [word, gap], back, parts', by simp⟩
    exact ⟨first, ne_nil_of_mem_runs memGap, blank, second⟩

/-- **A word is one run at most just if it is whole nowhere else.** -/
theorem count_runs_le_one_iff (h : HasWord cs before word) :
    (runs cs).count word ≤ 1 ↔ ∀ other, HasWord cs other word → other = before := by
  obtain ⟨isWord, front, back, parts, rfl⟩ := hasWord_iff.mp h
  rw [count_le_one_iff parts]
  constructor
  · intro only other there
    obtain ⟨-, front', back', parts', rfl⟩ := hasWord_iff.mp there
    rw [only front' back' parts']
  · intro only front' back' parts'
    have same := only front'.flatten (hasWord_iff.mpr ⟨isWord, front', back', parts', rfl⟩)
    rw [← (runs_flatten_of_append parts').1, same, (runs_flatten_of_append parts).1]

/-- A character at the end makes no difference to the words if it belongs to none. -/
theorem hasWord_concat_iff {c : Char} (other : isWord c = false) :
    HasWord (cs ++ [c]) before word ↔ HasWord cs before word := by
  constructor
  · rintro ⟨behind, whole, isWord, starts, ends⟩
    rcases List.eq_nil_or_concat behind with rfl | ⟨behind, last, rfl⟩
    · -- then the last letter of the word would be that character
      have last := congrArg List.getLast? whole
      rw [List.append_nil, List.getLast?_concat,
        List.getLast?_append_of_ne_nil _ isWord.some] at last
      rw [isWord.letters c (List.mem_of_getLast? last.symm)] at other
      cases other
    · rw [List.concat_eq_append, ← List.append_assoc word, ← List.append_assoc before] at whole
      obtain ⟨rfl, -⟩ := List.append_inj' whole rfl
      refine ⟨behind, rfl, isWord, starts, fun d hd => ends d ?_⟩
      rw [List.concat_eq_append, List.head?_append, Option.mem_def.mp hd]
      rfl
  · rintro ⟨behind, rfl, isWord, starts, ends⟩
    refine ⟨behind ++ [c], by simp, isWord, starts, ?_⟩
    cases behind with
    | nil =>
      intro d hd
      cases hd
      exact other
    | cons => exact ends

theorem hasNeighbours_concat_iff {c : Char} (other : isWord c = false) :
    HasNeighbours (cs ++ [c]) before word gap next ↔ HasNeighbours cs before word gap next := by
  constructor
  · rintro ⟨first, apart, blank, second⟩
    exact ⟨(hasWord_concat_iff other).mp first, apart, blank,
      (hasWord_concat_iff other).mp second⟩
  · rintro ⟨first, apart, blank, second⟩
    exact ⟨(hasWord_concat_iff other).mpr first, apart, blank,
      (hasWord_concat_iff other).mpr second⟩

end Words

end LiveLint.Text
