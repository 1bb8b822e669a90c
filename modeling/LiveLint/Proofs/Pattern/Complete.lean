import LiveLint.Proofs.Pattern.Way
import Mathlib.Algebra.Group.Nat.Defs

/-!
# What can be found is found

`Pattern.ends` gives up two kinds of states: one at a position that it has already, and one that
would make a decision twice. Neither loses a place if the pattern repeats nothing but classes
(`findsWays_of_repeatsOnlyClasses`). Of two states at one position the places are the same, and
parts of such a pattern decide under numbers of their own (`within_of_mem_decided`), so that no part
finds its decision made.
-/

namespace LiveLint.Pattern

/-- Whether the pattern repeats nothing but classes. -/
def repeatsOnlyClasses : Pattern → Bool
  | empty | one _ | start | stop | boundary => true
  | seq p q | alt p q => p.repeatsOnlyClasses && q.repeatsOnlyClasses
  | opt _ p | group _ p => p.repeatsOnlyClasses
  | star _ (one _) | plus _ (one _) => true
  | star .. | plus .. => false

theorem eq_one_of_repeatsOnlyClasses {greedy : Bool} {p : Pattern}
    (h : (star greedy p).repeatsOnlyClasses = true ∨ (plus greedy p).repeatsOnlyClasses = true) :
    ∃ k, p = one k := by
  cases p with
  | one k => exact ⟨k, rfl⟩
  | _ => simp [repeatsOnlyClasses] at h

/-- A sequence repeats nothing but classes if its parts do not. -/
theorem repeatsOnlyClasses_seqOf {ps : List Pattern}
    (h : ∀ p ∈ ps, p.repeatsOnlyClasses = true) : (seqOf ps).repeatsOnlyClasses = true := by
  have inner : ∀ p : Pattern, p.repeatsOnlyClasses = true →
      ∀ q ∈ p.parts, q.repeatsOnlyClasses = true := by
    intro p
    induction p with
    | empty => exact fun _ q hq => absurd hq List.not_mem_nil
    | seq p p' ih ih' =>
      intro simple
      obtain ⟨first, second⟩ := Bool.and_eq_true_iff.mp simple
      exact List.forall_mem_append.mpr ⟨ih first, ih' second⟩
    | _ => exact fun simple => List.forall_mem_singleton.mpr simple
  have flat : ∀ q ∈ ps.flatMap parts, q.repeatsOnlyClasses = true := by
    intro q hq
    obtain ⟨p, hp, hq⟩ := List.mem_flatMap.mp hq
    exact inner p (h p hp) q hq
  rw [seqOf]
  generalize ps.flatMap parts = qs at flat
  cases qs with
  | nil => rfl
  | cons q qs =>
    obtain ⟨first, later⟩ := List.forall_mem_cons.mp flat
    show (qs.foldl seq q).repeatsOnlyClasses = true
    induction qs generalizing q with
    | nil => exact first
    | cons r qs ih =>
      obtain ⟨next, later'⟩ := List.forall_mem_cons.mp later
      have both : (seq q r).repeatsOnlyClasses = true := Bool.and_eq_true_iff.mpr ⟨first, next⟩
      exact ih _ (List.forall_mem_cons.mpr ⟨both, later'⟩) both later'

/-! ## Numbers of decisions -/

/-- The number `d` belongs to the pattern with the number `here` or to a part of it. -/
def Within (here d : Nat) : Prop := ∃ k, d / 2 ^ k = here

section Within

variable {here d : Nat}

theorem within_self (here : Nat) : Within here here :=
  ⟨0, by simp⟩

theorem Within.le (h : Within here d) : here ≤ d := by
  obtain ⟨k, rfl⟩ := h
  exact Nat.div_le_self d _

theorem Within.of_left (h : Within (2 * here) d) : Within here d := by
  obtain ⟨k, hk⟩ := h
  refine ⟨k + 1, ?_⟩
  rw [Nat.pow_succ, ← Nat.div_div_eq_div_mul, hk]
  omega

theorem Within.of_right (h : Within (2 * here + 1) d) : Within here d := by
  obtain ⟨k, hk⟩ := h
  refine ⟨k + 1, ?_⟩
  rw [Nat.pow_succ, ← Nat.div_div_eq_div_mul, hk]
  omega

/-- Two parts of one pattern share no number. -/
theorem Within.not_right (pos : 0 < here) (left : Within (2 * here) d) :
    ¬Within (2 * here + 1) d := by
  rintro ⟨j, hj⟩
  obtain ⟨k, hk⟩ := left
  have half : ∀ i, d / 2 ^ (i + 1) = d / 2 ^ i / 2 := fun i => by
    rw [Nat.pow_succ, Nat.div_div_eq_div_mul]
  have mono : ∀ {i i' : Nat}, i ≤ i' → d / 2 ^ i' ≤ d / 2 ^ i := fun le =>
    Nat.div_le_div_left (Nat.pow_le_pow_right (by omega) le) (Nat.pos_of_ne_zero (by simp))
  rcases Nat.lt_trichotomy k j with less | rfl | more
  · have le : d / 2 ^ j ≤ d / 2 ^ (k + 1) := mono less
    have := half k
    omega
  · omega
  · have le : d / 2 ^ k ≤ d / 2 ^ (j + 1) := mono more
    have := half j
    omega

end Within

/-- The decision of a pattern is under its own number. -/
theorem within_of_decided {s u : State} {here : Nat} (h : u.decided = here :: s.decided) :
    ∀ d ∈ u.decided, d ∈ s.decided ∨ Within here d := by
  rw [h]
  exact List.forall_mem_cons.mpr ⟨.inr (within_self here), fun d made => .inl made⟩

/-- No decision of the pattern with the number `here` was made at the place of the state. -/
def State.Fresh (s : State) (here : Nat) : Prop := ∀ d ∈ s.decided, ¬Within here d

namespace State.Fresh

variable {s : State} {here : Nat}

theorem not_mem (h : s.Fresh here) : here ∉ s.decided :=
  fun made => h here made (within_self here)

theorem left (h : s.Fresh here) : s.Fresh (2 * here) :=
  fun d made inside => h d made inside.of_left

theorem right (h : s.Fresh here) : s.Fresh (2 * here + 1) :=
  fun d made inside => h d made inside.of_right

/-- What is decided for the whole is not decided for a part. -/
theorem left_of_decided {u : State} (pos : 0 < here) (h : s.Fresh here)
    (decided : u.decided = here :: s.decided) : u.Fresh (2 * here) := by
  intro d made inside
  rw [decided] at made
  rcases List.mem_cons.mp made with rfl | made
  · have := inside.le
    omega
  · exact h.left d made inside

theorem right_of_decided {u : State} (h : s.Fresh here)
    (decided : u.decided = here :: s.decided) : u.Fresh (2 * here + 1) := by
  intro d made inside
  rw [decided] at made
  rcases List.mem_cons.mp made with rfl | made
  · have := inside.le
    omega
  · exact h.right d made inside

/-- A decision that was not made is made at the same place. -/
theorem exists_deciding_eq (h : s.Fresh here) (next : State → List State) :
    ∃ u : State, u.place = s.place ∧ u.decided = here :: s.decided ∧
      s.deciding here next = next u :=
  ⟨{ s with decided := here :: s.decided }, rfl, rfl, State.deciding_of_not_mem h.not_mem⟩

end State.Fresh

/-! ## One state for each position -/

section Distinct

variable {s t : State} {states : List State}

/-- Of several states at one position, the first is kept. -/
theorem find?_distinctFrom {n seen : Nat} (unseen : seen.testBit n = false) (states : List State) :
    (distinctFrom seen states).find? (·.isAt n) = states.find? (·.isAt n) := by
  induction states generalizing seen with
  | nil => rfl
  | cons s states ih =>
    rw [distinctFrom]
    by_cases there : s.position = n
    · rw [there, unseen, if_neg Bool.false_ne_true]
      have first : s.isAt n = true := beq_iff_eq.mpr there
      rw [List.find?_cons_of_pos first, List.find?_cons_of_pos first]
    · have other : ¬s.isAt n = true := fun same => there (beq_iff_eq.mp same)
      rw [List.find?_cons_of_neg other]
      split
      · exact ih unseen
      · have unseen' : (seen ||| 1 <<< s.position).testBit n = false := by
          rw [Nat.testBit_or, unseen, Nat.one_shiftLeft, Nat.testBit_two_pow_of_ne there]
          rfl
        rw [List.find?_cons_of_neg other, ih unseen']

theorem find?_distinct (n : Nat) (states : List State) :
    (distinct states).find? (·.isAt n) = states.find? (·.isAt n) :=
  find?_distinctFrom (Nat.zero_testBit n) states

/-- Where all states come from one place, none of their places is lost. -/
theorem exists_mem_distinct (reach : ∀ u ∈ states, ∃ w, s.place.Reads w u.place)
    (h : t ∈ states) : ∃ u ∈ distinct states, u.place = t.place := by
  obtain ⟨u, found⟩ : ∃ u, (distinct states).find? (·.isAt t.position) = some u := by
    rw [find?_distinct]
    exact Option.isSome_iff_exists.mp (List.find?_isSome.mpr ⟨t, h, beq_iff_eq.mpr rfl⟩)
  have hu : u ∈ distinct states := List.mem_of_find?_eq_some found
  have there := List.find?_some found
  have position : u.position = t.position := beq_iff_eq.mp there
  obtain ⟨w, reads⟩ := reach u (mem_of_mem_distinct hu)
  obtain ⟨v, reads'⟩ := reach t h
  exact ⟨u, hu, reads.eq_of_position reads' position⟩

/-- The preferred state is kept. -/
theorem head?_distinct : (distinct states).head? = states.head? := by
  cases states with
  | nil => rfl
  | cons s states =>
    rw [distinct, distinctFrom, Nat.zero_testBit]
    rfl

end Distinct

/-! ## Runs of a class -/

section Runs

variable {k : CharClass} {decision : Nat} {s : State}

theorem oneEnds_cons {c : Char} {r : List Char} (rest : s.place.rest = c :: r)
    (holds : k.holds c = true) : oneEnds k s = [s.take c r] := by
  rw [oneEnds, rest]
  exact if_pos holds

theorem runEnds_cons {c : Char} {r : List Char} (rest : s.place.rest = c :: r)
    (holds : k.holds c = true) :
    runEnds k decision s =
      ⟨⟨s.position + 1, some c, r⟩, s.spans, [decision]⟩ ::
        runEnds k decision ⟨⟨s.position + 1, some c, r⟩, s.spans, [decision]⟩ := by
  rw [runEnds, rest, runEnds.go, if_pos holds]
  rfl

theorem runEnds_of_stop (stop : ∀ c ∈ s.place.rest.head?, k.holds c = false) :
    runEnds k decision s = [] := by
  rw [runEnds]
  cases rest : s.place.rest with
  | nil => rfl
  | cons c r =>
    rw [runEnds.go, stop c (by rw [rest]; rfl)]
    rfl

theorem exists_mem_runEnds (decision : Nat) {w : List Char} {b : Place} (nonempty : w ≠ [])
    (all : ∀ c ∈ w, k.holds c = true) (reads : s.place.Reads w b) :
    ∃ t ∈ runEnds k decision s, t.place = b := by
  induction w generalizing s with
  | nil => exact absurd rfl nonempty
  | cons c w ih =>
    obtain ⟨holds, all⟩ := List.forall_mem_cons.mp all
    have rest : s.place.rest = c :: (w ++ b.rest) := reads.rest
    rw [runEnds_cons rest holds]
    obtain ⟨m, first, reads⟩ := Place.Reads.exists_between (w := [c]) reads
    cases (Place.reads_cons rest).eq_of_position first first.position.symm
    by_cases last : w = []
    · subst last
      exact ⟨_, List.mem_cons_self, reads.eq_of_nil.symm⟩
    · obtain ⟨t, ht, place⟩ :=
        ih (s := ⟨⟨s.position + 1, some c, w ++ b.rest⟩, s.spans, [decision]⟩) last all reads
      exact ⟨t, List.mem_cons_of_mem _ ht, place⟩

/-- The longest run reads all characters of the class that follow. -/
theorem exists_getLast?_runEnds (decision : Nat) {w : List Char} {b : Place} (nonempty : w ≠ [])
    (all : ∀ c ∈ w, k.holds c = true) (reads : s.place.Reads w b)
    (stop : ∀ c ∈ b.rest.head?, k.holds c = false) :
    ∃ t, (runEnds k decision s).getLast? = some t ∧ t.place = b := by
  induction w generalizing s with
  | nil => exact absurd rfl nonempty
  | cons c w ih =>
    obtain ⟨holds, all⟩ := List.forall_mem_cons.mp all
    have rest : s.place.rest = c :: (w ++ b.rest) := reads.rest
    rw [runEnds_cons rest holds]
    obtain ⟨m, first, reads⟩ := Place.Reads.exists_between (w := [c]) reads
    cases (Place.reads_cons rest).eq_of_position first first.position.symm
    by_cases last : w = []
    · subst last
      have here := reads.eq_of_nil
      rw [runEnds_of_stop fun d hd => stop d (by rw [here]; exact hd)]
      exact ⟨_, rfl, here.symm⟩
    · obtain ⟨t, longest, place⟩ :=
        ih (s := ⟨⟨s.position + 1, some c, w ++ b.rest⟩, s.spans, [decision]⟩) last all reads
      refine ⟨t, ?_, place⟩
      rw [List.getLast?_cons, longest]
      rfl

theorem decided_of_mem_runEnds {t : State} (h : t ∈ runEnds k decision s) :
    t.decided = [decision] := by
  suffices run : ∀ (r : List Char) (s : State), t ∈ runEnds.go k decision r s →
      t.decided = [decision] from run _ s h
  intro r
  induction r with
  | nil =>
    intro s h
    cases h
  | cons c r ih =>
    intro s h
    rw [runEnds.go] at h
    split at h
    · rcases List.mem_cons.mp h with rfl | h
      · rfl
      · exact ih _ h
    · cases h

end Runs

/-! ## What is decided on the way -/

section Complete

variable {p : Pattern} {here : Nat}

/-- What a pattern decides, it decides under its own numbers. -/
theorem within_of_mem_decided (simple : p.repeatsOnlyClasses = true) {s t : State}
    (h : t ∈ p.ends here s) : ∀ d ∈ t.decided, d ∈ s.decided ∨ Within here d := by
  induction p generalizing here s t with
  | empty =>
    cases List.mem_singleton.mp h
    exact fun d made => .inl made
  | start | stop | boundary =>
    rw [ends] at h
    split at h
    · cases List.mem_singleton.mp h
      exact fun d made => .inl made
    · cases h
  | one k =>
    rw [ends, oneEnds] at h
    split at h
    · cases h
    · split at h
      · cases List.mem_singleton.mp h
        intro d made
        cases made
      · cases h
  | seq p q ihp ihq =>
    obtain ⟨simple, simple'⟩ := Bool.and_eq_true_iff.mp simple
    obtain ⟨m, head, tail⟩ := List.mem_flatMap.mp (mem_of_mem_distinct h)
    intro d made
    rcases ihq simple' tail d made with made | inside
    · exact (ihp simple head d made).imp_right Within.of_left
    · exact .inr inside.of_right
  | alt p q ihp ihq =>
    obtain ⟨simple, simple'⟩ := Bool.and_eq_true_iff.mp simple
    obtain ⟨u, -, decided, h⟩ := mem_deciding h
    have own := within_of_decided decided
    intro d made
    rcases List.mem_append.mp (mem_of_mem_distinct h) with left | right
    · exact (ihp simple left d made).elim (own d) fun inside => .inr inside.of_left
    · exact (ihq simple' right d made).elim (own d) fun inside => .inr inside.of_right
  | opt greedy p ih =>
    obtain ⟨u, -, decided, h⟩ := mem_deciding h
    have own := within_of_decided decided
    intro d made
    rcases mem_prefer_iff.mp (mem_of_mem_distinct h) with some | none
    · exact (ih simple some d made).elim (own d) fun inside => .inr inside.of_left
    · cases List.mem_singleton.mp none
      exact own d made
  | star greedy p _ =>
    obtain ⟨k, rfl⟩ := eq_one_of_repeatsOnlyClasses (.inl simple)
    obtain ⟨u, -, decided, h⟩ := mem_deciding h
    rcases mem_prefer_iff.mp h with more | none
    · rw [decided_of_mem_runEnds (mem_ordered_iff.mp more)]
      exact List.forall_mem_singleton.mpr (.inr (within_self here))
    · cases List.mem_singleton.mp none
      exact within_of_decided decided
  | plus greedy p _ =>
    obtain ⟨k, rfl⟩ := eq_one_of_repeatsOnlyClasses (.inr simple)
    rw [decided_of_mem_runEnds (mem_ordered_iff.mp h)]
    exact List.forall_mem_singleton.mpr (.inr (within_self here))
  | group number p ih =>
    obtain ⟨u, inside, rfl⟩ := List.mem_map.mp h
    intro d made
    exact (ih simple inside d made).imp_right Within.of_left

/-- Every way through the pattern with the number `here` ends at a place that is found. -/
def FindsWays (p : Pattern) (here : Nat) : Prop :=
  ∀ {a b : Trail}, Way p a b → ∀ {s : State}, s.place = a.place → s.Fresh here →
    ∃ t ∈ p.ends here s, t.place = b.place

variable {q : Pattern} {greedy : Bool} {k : CharClass}

theorem findsWays_start : FindsWays start here := by
  intro a b way s same _
  obtain ⟨first, rfl⟩ := way_start_iff.mp way
  have first' : s.position = 0 := by rw [State.position, same, first]
  refine ⟨s, ?_, same⟩
  rw [ends, if_pos first']
  exact List.mem_singleton.mpr rfl

theorem findsWays_stop : FindsWays stop here := by
  intro a b way s same _
  obtain ⟨last, rfl⟩ := way_stop_iff.mp way
  rw [← same] at last
  refine ⟨s, ?_, same⟩
  rw [ends, if_pos (List.isEmpty_iff.mpr last)]
  exact List.mem_singleton.mpr rfl

theorem findsWays_boundary : FindsWays boundary here := by
  intro a b way s same _
  obtain ⟨bound, rfl⟩ := way_boundary_iff.mp way
  rw [← same] at bound
  refine ⟨s, ?_, same⟩
  rw [ends, if_pos bound]
  exact List.mem_singleton.mpr rfl

theorem findsWays_one : FindsWays (one k) here := by
  intro a b way s same _
  obtain ⟨c, holds, reads, -⟩ := way_one_iff.mp way
  rw [← same] at reads
  have rest : s.place.rest = c :: b.place.rest := reads.rest
  refine ⟨s.take c b.place.rest, ?_, ?_⟩
  · rw [ends, oneEnds_cons rest holds]
    exact List.mem_singleton.mpr rfl
  · exact (Place.reads_cons rest).eq_of_position reads reads.position.symm

/-- The second part is fresh after the first, since the first decides under its own numbers. -/
theorem findsWays_seq (pos : 0 < here) (simple : p.repeatsOnlyClasses = true)
    (first : FindsWays p (2 * here)) (second : FindsWays q (2 * here + 1)) :
    FindsWays (seq p q) here := by
  intro a b way s same fresh
  cases way with
  | seq head tail =>
    obtain ⟨m, hm, place⟩ := first head same fresh.left
    have fresh' : m.Fresh (2 * here + 1) := by
      intro d made inside
      rcases within_of_mem_decided simple hm d made with made | inside'
      · exact fresh.right d made inside
      · exact inside'.not_right pos inside
    obtain ⟨t, ht, place'⟩ := second tail place fresh'
    have reach : ∀ u ∈ (p.ends (2 * here) s).flatMap (q.ends (2 * here + 1)),
        ∃ w, s.place.Reads w u.place := by
      intro u hu
      obtain ⟨v, hv, hu⟩ := List.mem_flatMap.mp hu
      exact (Way.seq (way_of_mem_ends hv) (way_of_mem_ends hu)).reads
    obtain ⟨u, hu, position⟩ := exists_mem_distinct reach (List.mem_flatMap.mpr ⟨m, hm, ht⟩)
    exact ⟨u, hu, position.trans place'⟩

theorem findsWays_alt (pos : 0 < here) (left : FindsWays p (2 * here))
    (right : FindsWays q (2 * here + 1)) : FindsWays (alt p q) here := by
  intro a b way s same fresh
  rw [ends]
  obtain ⟨u, placed, decided, eq⟩ := fresh.exists_deciding_eq fun s =>
    distinct (p.ends (2 * here) s ++ q.ends (2 * here + 1) s)
  rw [eq]
  obtain ⟨t, ht, place⟩ :
      ∃ t ∈ p.ends (2 * here) u ++ q.ends (2 * here + 1) u, t.place = b.place := by
    cases way with
    | altLeft way =>
      obtain ⟨t, ht, place⟩ := left way (placed.trans same) (fresh.left_of_decided pos decided)
      exact ⟨t, List.mem_append_left _ ht, place⟩
    | altRight way =>
      obtain ⟨t, ht, place⟩ := right way (placed.trans same) (fresh.right_of_decided decided)
      exact ⟨t, List.mem_append_right _ ht, place⟩
  have reach : ∀ v ∈ p.ends (2 * here) u ++ q.ends (2 * here + 1) u,
      ∃ w, u.place.Reads w v.place := by
    intro v hv
    rcases List.mem_append.mp hv with left | right
    · exact (way_of_mem_ends left).reads
    · exact (way_of_mem_ends right).reads
  obtain ⟨v, hv, place'⟩ := exists_mem_distinct reach ht
  exact ⟨v, hv, place'.trans place⟩

theorem findsWays_opt (pos : 0 < here) (inner : FindsWays p (2 * here)) :
    FindsWays (opt greedy p) here := by
  intro a b way s same fresh
  rw [ends]
  obtain ⟨u, placed, decided, eq⟩ := fresh.exists_deciding_eq fun s =>
    distinct (prefer greedy (p.ends (2 * here) s) [s])
  rw [eq]
  obtain ⟨t, ht, place⟩ : ∃ t ∈ prefer greedy (p.ends (2 * here) u) [u], t.place = b.place := by
    cases way with
    | optNone => exact ⟨u, mem_prefer_iff.mpr (.inr List.mem_cons_self), placed.trans same⟩
    | optSome way =>
      obtain ⟨t, ht, place⟩ := inner way (placed.trans same) (fresh.left_of_decided pos decided)
      exact ⟨t, mem_prefer_iff.mpr (.inl ht), place⟩
  have reach : ∀ v ∈ prefer greedy (p.ends (2 * here) u) [u], ∃ w, u.place.Reads w v.place := by
    intro v hv
    rcases mem_prefer_iff.mp hv with some | none
    · exact (way_of_mem_ends some).reads
    · cases List.mem_singleton.mp none
      exact ⟨[], Place.reads_nil _⟩
  obtain ⟨v, hv, place'⟩ := exists_mem_distinct reach ht
  exact ⟨v, hv, place'.trans place⟩

theorem findsWays_star_one : FindsWays (star greedy (one k)) here := by
  intro a b way s same fresh
  rw [ends]
  obtain ⟨u, placed, -, eq⟩ := fresh.exists_deciding_eq fun s =>
    prefer greedy (if greedy then (runEnds k here s).reverse else runEnds k here s) [s]
  rw [eq]
  obtain ⟨w, all, reads, -⟩ := way_star_one_iff.mp way
  rw [← same, ← placed] at reads
  by_cases nonempty : w = []
  · subst nonempty
    exact ⟨u, mem_prefer_iff.mpr (.inr List.mem_cons_self), reads.eq_of_nil.symm⟩
  · obtain ⟨t, run, place⟩ := exists_mem_runEnds here nonempty all reads
    exact ⟨t, mem_prefer_iff.mpr (.inl (mem_ordered_iff.mpr run)), place⟩

theorem findsWays_plus_one : FindsWays (plus greedy (one k)) here := by
  intro a b way s same _
  obtain ⟨w, nonempty, all, reads, -⟩ := way_plus_one_iff.mp way
  rw [← same] at reads
  obtain ⟨t, run, place⟩ := exists_mem_runEnds here nonempty all reads
  exact ⟨t, mem_ordered_iff.mpr run, place⟩

theorem findsWays_group {number : Nat} (inner : FindsWays p (2 * here)) :
    FindsWays (group number p) here := by
  intro a b way s same fresh
  obtain ⟨m, inside, rfl⟩ := way_group_iff.mp way
  obtain ⟨t, ht, place⟩ := inner inside same fresh.left
  exact ⟨t.closing number s.position, List.mem_map_of_mem ht, place⟩

/-- **Every way is found**, if the pattern repeats nothing but classes. -/
theorem findsWays_of_repeatsOnlyClasses (simple : p.repeatsOnlyClasses = true)
    (pos : 0 < here) : FindsWays p here := by
  induction p generalizing here with
  | empty =>
    intro a b way s same _
    cases way
    exact ⟨s, List.mem_singleton.mpr rfl, same⟩
  | start => exact findsWays_start
  | stop => exact findsWays_stop
  | boundary => exact findsWays_boundary
  | one k => exact findsWays_one
  | seq p q ihp ihq =>
    obtain ⟨simple, simple'⟩ := Bool.and_eq_true_iff.mp simple
    exact findsWays_seq pos simple (ihp simple (by omega)) (ihq simple' (by omega))
  | alt p q ihp ihq =>
    obtain ⟨simple, simple'⟩ := Bool.and_eq_true_iff.mp simple
    exact findsWays_alt pos (ihp simple (by omega)) (ihq simple' (by omega))
  | opt greedy p ih => exact findsWays_opt pos (ih simple (by omega))
  | star greedy p _ =>
    obtain ⟨k, rfl⟩ := eq_one_of_repeatsOnlyClasses (.inl simple)
    exact findsWays_star_one
  | plus greedy p _ =>
    obtain ⟨k, rfl⟩ := eq_one_of_repeatsOnlyClasses (.inr simple)
    exact findsWays_plus_one
  | group number p ih => exact findsWays_group (ih simple (by omega))

end Complete

end LiveLint.Pattern
