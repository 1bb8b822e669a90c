import LiveLint.Proofs.Pattern.Matches

/-!
# Turns of a greedy repetition

A greedy repetition tries one turn after the other, and where what follows it cannot go on from the
last turn, it goes back to the one before. `Pattern.visit` does so without coming twice to one
position: where the first visit led nowhere, a second one would not either. What is found first is
therefore what trying alone finds (`findSome?_plusEnds`, `findSome?_starEnds`).
-/

namespace LiveLint.Pattern

variable {β : Type} {states : List State} {f best : State → Option β}

/-! ## One state for each position -/

/-- Whether anything is found depends on the position alone. -/
def GoesByPosition (f : State → Option β) (states : List State) : Prop :=
  ∀ s ∈ states, ∀ t ∈ states, s.position = t.position → f s = none → f t = none

/-- Of the ends of a pattern, two at one position are at one place. -/
theorem goesByPosition_ends (g : Place → Option β) (p : Pattern) (here : Nat) (s : State) :
    GoesByPosition (g ·.place) (p.ends here s) := by
  intro t ht u hu position none
  obtain ⟨w, reads⟩ := (way_of_mem_ends ht).reads
  obtain ⟨v, reads'⟩ := (way_of_mem_ends hu).reads
  have same : t.place = u.place := reads.eq_of_position reads' position
  show g u.place = Option.none
  rwa [← same]

theorem findSome?_distinctFrom {seen : Nat} (go : GoesByPosition f states)
    (none : ∀ s ∈ states, seen.testBit s.position = true → f s = none) :
    (distinctFrom seen states).findSome? f = states.findSome? f := by
  induction states generalizing seen with
  | nil => rfl
  | cons s states ih =>
    have go' : GoesByPosition f states := fun t ht u hu =>
      go t (List.mem_cons_of_mem _ ht) u (List.mem_cons_of_mem _ hu)
    rw [distinctFrom, List.findSome?_cons]
    split
    · next again =>
      rw [none s List.mem_cons_self again]
      exact ih go' fun t ht => none t (List.mem_cons_of_mem _ ht)
    · rw [List.findSome?_cons]
      cases here : f s with
      | some b => rfl
      | none =>
        refine ih go' fun t ht marked => ?_
        rw [Nat.testBit_or, Bool.or_eq_true, Nat.one_shiftLeft, Nat.testBit_two_pow,
          decide_eq_true_eq] at marked
        rcases marked with before | same
        · exact none t (List.mem_cons_of_mem _ ht) before
        · exact go s List.mem_cons_self t (List.mem_cons_of_mem _ ht) same here

/-- Nothing is lost with the states at a position that come later. -/
theorem findSome?_distinct (go : GoesByPosition f states) :
    (distinct states).findSome? f = states.findSome? f :=
  findSome?_distinctFrom go fun s _ marked => by simp at marked

/-- Where every state finds `v` or nothing, `v` is found if any does. -/
theorem findSome?_eq_of_all {v : Option β} (all : ∀ s ∈ states, f s = none ∨ f s = v)
    (some : v ≠ none → ∃ s ∈ states, f s = v) : states.findSome? f = v := by
  cases found : states.findSome? f with
  | none =>
    by_contra other
    obtain ⟨s, hs, here⟩ := some (Ne.symm other)
    exact other ((List.findSome?_eq_none_iff.mp found s hs).symm.trans here)
  | some b =>
    obtain ⟨s, hs, here⟩ := List.exists_of_findSome?_eq_some found
    rcases all s hs with none | same
    · rw [here] at none
      cases none
    · exact here.symm.trans same

/-! ## Trying turn after turn -/

/-- A state with one more decision. -/
def State.having (s : State) (decision : Nat) : State :=
  { s with decided := decision :: s.decided }

/-- Among the states that `Q` allows, `best` finds what the last turns find that lead anywhere: it
tries all that a turn can lead to, and then `f` where it stands. `size` is the length of the whole
text. -/
structure Explores (turn : State → List State) (decision size : Nat) (Q : State → Prop)
    (f best : State → Option β) : Prop where
  fresh : ∀ {s}, Q s → decision ∉ s.decided
  inside : ∀ {s}, Q s → s.position + s.place.rest.length = size
  turns : ∀ {s t}, Q s → t ∈ turn (s.having decision) → Q t
  onward : ∀ {s t}, Q s → t ∈ turn (s.having decision) → s.position < t.position
  same : ∀ {s t}, Q s → Q t → s.position = t.position → best s = none → best t = none
  step : ∀ {s}, Q s →
    best s = ((turn (s.having decision)).findSome? best).or (f (s.having decision))

namespace Explores

variable {turn : State → List State} {decision size fuel : Nat} {Q : State → Prop}
  {found next : List State} {s : State}

/-- What is found so far, the latest first. -/
def firstOf (f : State → Option β) (found : List State) : Option β :=
  found.reverse.findSome? f

/-- If nothing is found so far, there is nothing to find at the positions that were visited. -/
def Exhausted (Q : State → Prop) (f best : State → Option β) (found : List State) : Prop :=
  firstOf f found = none → ∀ u ∈ found, ∀ t, Q t → t.position = u.position → best t = none

/-- A visit finds what trying finds from there, if nothing was found before. -/
def Finds (Q : State → Prop) (f best : State → Option β) (found after : List State)
    (here : Option β) : Prop :=
  firstOf f after = (firstOf f found).or here ∧ Exhausted Q f best after

/-- Visits one after the other find what the first of them finds. -/
theorem finds_foldl {visit : List State → State → List State}
    (each : ∀ found, Exhausted Q f best found → ∀ s ∈ next,
      Finds Q f best found (visit found s) (best s))
    (old : Exhausted Q f best found) :
    Finds Q f best found (next.foldl visit found) (next.findSome? best) := by
  induction next generalizing found with
  | nil => exact ⟨by simp, old⟩
  | cons s next ih =>
    obtain ⟨first, new⟩ := each found old s List.mem_cons_self
    obtain ⟨later, last⟩ :=
      ih (fun found old t ht => each found old t (List.mem_cons_of_mem _ ht)) new
    refine ⟨?_, last⟩
    rw [List.foldl_cons, later, first, Option.or_assoc, List.findSome?_cons]
    cases best s <;> rfl

/-- **A visit finds what trying finds.** -/
theorem finds_visit (h : Explores turn decision size Q f best) (here : Q s)
    (enough : s.place.rest.length < fuel) (old : Exhausted Q f best found) :
    Finds Q f best found (visit turn true decision fuel found s) (best s) := by
  induction fuel generalizing found s with
  | zero => exact absurd enough (Nat.not_lt_zero _)
  | succ fuel ih =>
    rw [visit]
    split
    · next visited =>
      -- the position was visited: if nothing is found, there is nothing to find here
      rw [List.contains_eq_mem, decide_eq_false (h.fresh here), Bool.or_false,
        List.any_eq_true] at visited
      obtain ⟨u, hu, same⟩ := visited
      refine ⟨?_, old⟩
      cases so : firstOf f found with
      | some b => rfl
      | none => rw [old so u hu s here (beq_iff_eq.mp same).symm, Option.or_none]
    · rw [if_pos rfl]
      have all : (turn (s.having decision)).filter (fun t => s.position < t.position) =
          turn (s.having decision) :=
        List.filter_eq_self.mpr fun t ht => decide_eq_true (h.onward here ht)
      have turns : ∀ found, Exhausted Q f best found → ∀ t ∈ turn (s.having decision),
          Finds Q f best found (visit turn true decision fuel found t) (best t) := by
        intro found old t ht
        have there := h.turns here ht
        have := h.inside here
        have := h.inside there
        have := h.onward here ht
        exact ih there (by omega) old
      obtain ⟨deeper, exhausted⟩ := finds_foldl turns old
      show Finds Q f best found (s.having decision ::
        ((turn (s.having decision)).filter fun t => s.position < t.position).foldl
          (visit turn true decision fuel) found) (best s)
      rw [all]
      have whole : firstOf f (s.having decision ::
          (turn (s.having decision)).foldl (visit turn true decision fuel) found) =
          (firstOf f found).or (best s) := by
        rw [firstOf, List.reverse_cons, List.findSome?_append, ← firstOf, deeper, Option.or_assoc,
          h.step here, List.findSome?_singleton]
      refine ⟨whole, fun none => ?_⟩
      rw [whole, Option.or_eq_none_iff] at none
      refine List.forall_mem_cons.mpr ⟨fun t ht same => ?_, exhausted ?_⟩
      · exact h.same here ht same.symm none.2
      · have := h.step here
        rw [none.2] at this
        rw [deeper, none.1, (Option.or_eq_none_iff.mp this.symm).1]
        rfl

theorem exhausted_nil : Exhausted Q f best [] := by
  intro _ u hu
  cases hu

end Explores

variable {turn : State → List State} {decision size : Nat} {Q : State → Prop} {s : State}

/-- After any number of turns, what is found first is what trying finds. -/
theorem findSome?_starEnds (h : Explores turn decision size Q f best) (here : Q s) :
    (starEnds turn true decision s).findSome? f = best s := by
  obtain ⟨first, -⟩ := h.finds_visit here (Nat.lt_succ_self _) Explores.exhausted_nil
  exact first

/-- After one turn or more, what is found first is what trying finds after one turn. -/
theorem findSome?_plusEnds (h : Explores turn decision size Q f best)
    (here : ∀ t ∈ turn s, Q t ∧ t.place.rest.length ≤ s.place.rest.length) :
    (plusEnds turn true decision s).findSome? f = (turn s).findSome? best := by
  have turns : ∀ found, Explores.Exhausted Q f best found → ∀ t ∈ turn s,
      Explores.Finds Q f best found
        (visit turn true decision (s.place.rest.length + 1) found t) (best t) := by
    intro found old t ht
    obtain ⟨there, le⟩ := here t ht
    exact h.finds_visit there (Nat.lt_succ_of_le le) old
  obtain ⟨first, -⟩ := Explores.finds_foldl turns Explores.exhausted_nil
  exact first

end LiveLint.Pattern
