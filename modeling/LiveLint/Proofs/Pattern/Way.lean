import LiveLint.Pattern.Compose
import LiveLint.Pattern.Ends
import Mathlib.Data.List.Induction

/-!
# Ways through a pattern

`Pattern.ends` says in which order the ends of a pattern are preferred, and keeps book of decisions
so that it comes to an end. `Way` leaves both out: it says only where a pattern can lead, one
constructor for each thing that a pattern can do next. Whatever is found is found on a way
(`way_of_mem_ends`), so what a pattern cannot do is shown by looking at the ways through it.

The ways through a sequence do not depend on how it was composed: it is taken part by part
(`way_seqOf_iff`).
-/

namespace LiveLint.Pattern

/-! ## Places of a text -/

/-- Reading `w` leads from the first place to the second. -/
structure Place.Reads (a : Place) (w : List Char) (b : Place) : Prop where
  rest : a.rest = w ++ b.rest
  position : b.position = a.position + w.length
  before : b.before = w.getLast?.or a.before

namespace Place

variable {a b c : Place} {v w : List Char}

theorem reads_nil (a : Place) : a.Reads [] a :=
  ⟨rfl, rfl, rfl⟩

theorem Reads.trans (h : a.Reads w b) (h' : b.Reads v c) : a.Reads (w ++ v) c where
  rest := by rw [h.rest, h'.rest, List.append_assoc]
  position := by
    rw [h'.position, h.position, List.length_append]
    omega
  before := by rw [h'.before, h.before, List.getLast?_append, Option.or_assoc]

theorem reads_cons {d : Char} {r : List Char} (h : a.rest = d :: r) :
    a.Reads [d] ⟨a.position + 1, some d, r⟩ :=
  ⟨h, rfl, rfl⟩

/-- Any beginning of the text can be read. -/
theorem exists_reads {r : List Char} (h : a.rest = w ++ r) : ∃ b, a.Reads w b ∧ b.rest = r :=
  ⟨⟨a.position + w.length, w.getLast?.or a.before, r⟩, ⟨h, rfl, rfl⟩, rfl⟩

/-- What is read can be cut anywhere. -/
theorem Reads.exists_between (h : a.Reads (w ++ v) c) : ∃ b, a.Reads w b ∧ b.Reads v c := by
  obtain ⟨b, reads, rest⟩ := exists_reads (h.rest.trans (List.append_assoc w v c.rest))
  refine ⟨b, reads, rest, ?_, ?_⟩
  · rw [h.position, reads.position, List.length_append]
    omega
  · rw [h.before, reads.before, List.getLast?_append, Option.or_assoc]

/-- A place is known by its position. -/
theorem Reads.eq_of_position (h : a.Reads w b) (h' : a.Reads v c)
    (same : b.position = c.position) : b = c := by
  have length : w.length = v.length := by
    have := h.position
    have := h'.position
    omega
  obtain ⟨rfl, rest⟩ := List.append_inj (h.rest.symm.trans h'.rest) length
  have before : b.before = c.before := h.before.trans h'.before.symm
  obtain ⟨_, _, _⟩ := b
  obtain ⟨_, _, _⟩ := c
  cases same
  cases before
  cases rest
  rfl

/-- What is read of a text and what is left make up the text. -/
theorem Reads.position_add_length {cs : List Char} (h : (start cs).Reads w a) :
    a.position + a.rest.length = cs.length := by
  have text : cs = w ++ a.rest := h.rest
  have position : a.position = 0 + w.length := h.position
  rw [position, text, List.length_append, Nat.zero_add]

/-- Where nothing was read, the place is the same. -/
theorem Reads.eq_of_nil (h : a.Reads [] b) : b = a :=
  h.eq_of_position (reads_nil a) (by rw [h.position]; rfl)

end Place

/-! ## Ways -/

/-- A place, and the groups that were closed on the way to it. -/
structure Trail where
  place : Place
  spans : List Span
deriving DecidableEq, Repr

/-- Reading `w` leads from the first trail to the second, and no group is closed. -/
structure Trail.Reads (a : Trail) (w : List Char) (b : Trail) : Prop where
  place : a.place.Reads w b.place
  spans : b.spans = a.spans

namespace Trail

variable {a b c : Trail} {v w : List Char}

theorem reads_nil (a : Trail) : a.Reads [] a :=
  ⟨Place.reads_nil _, rfl⟩

theorem Reads.trans (h : a.Reads w b) (h' : b.Reads v c) : a.Reads (w ++ v) c :=
  ⟨h.place.trans h'.place, h'.spans.trans h.spans⟩

theorem exists_reads {r : List Char} (h : a.place.rest = w ++ r) :
    ∃ b, a.Reads w b ∧ b.place.rest = r := by
  obtain ⟨b, reads, rest⟩ := Place.exists_reads h
  exact ⟨⟨b, a.spans⟩, ⟨reads, rfl⟩, rest⟩

theorem Reads.exists_between (h : a.Reads (w ++ v) c) : ∃ b, a.Reads w b ∧ b.Reads v c := by
  obtain ⟨m, first, second⟩ := h.place.exists_between
  exact ⟨⟨m, a.spans⟩, ⟨first, rfl⟩, second, h.spans⟩

theorem Reads.eq_of_nil (h : a.Reads [] b) : b = a := by
  obtain ⟨place, spans⟩ := b
  cases h.place.eq_of_nil
  cases h.spans
  rfl

end Trail

/-- A state without its decisions. -/
def State.trail (s : State) : Trail := ⟨s.place, s.spans⟩

/-- A pattern can lead from the first trail to the second. -/
inductive Way : Pattern → Trail → Trail → Prop
  | empty {a} : Way empty a a
  | one {k a b c} (holds : k.holds c = true) (reads : a.place.Reads [c] b) :
      Way (one k) a ⟨b, a.spans⟩
  | start {a} (first : a.place.position = 0) : Way start a a
  | stop {a} (last : a.place.rest = []) : Way stop a a
  | boundary {a} (bound : Text.isBoundary a.place.before a.place.rest.head? = true) :
      Way boundary a a
  | seq {p q a b c} (head : Way p a b) (tail : Way q b c) : Way (seq p q) a c
  | altLeft {p q a b} (way : Way p a b) : Way (alt p q) a b
  | altRight {p q a b} (way : Way q a b) : Way (alt p q) a b
  | optNone {greedy p a} : Way (opt greedy p) a a
  | optSome {greedy p a b} (way : Way p a b) : Way (opt greedy p) a b
  | starNone {greedy p a} : Way (star greedy p) a a
  | starMore {greedy p a b c} (turns : Way (star greedy p) a b) (turn : Way p b c) :
      Way (star greedy p) a c
  | plusOnce {greedy p a b} (turn : Way p a b) : Way (plus greedy p) a b
  | plusMore {greedy p a b c} (turns : Way (plus greedy p) a b) (turn : Way p b c) :
      Way (plus greedy p) a c
  | group {number p a b} (way : Way p a b) :
      Way (group number p) a ⟨b.place, ⟨number, a.place.position, b.place.position⟩ :: b.spans⟩

section Way

variable {p q : Pattern} {k : CharClass} {greedy : Bool} {a b c : Trail}

/-- A way reads some of the text. -/
theorem Way.reads (h : Way p a b) : ∃ w, a.place.Reads w b.place := by
  induction h with
  | empty | start | stop | boundary | optNone | starNone => exact ⟨[], Place.reads_nil _⟩
  | one _ reads => exact ⟨_, reads⟩
  | altLeft _ ih | altRight _ ih | optSome _ ih | plusOnce _ ih | group _ ih => exact ih
  | seq _ _ ih ih' | starMore _ _ ih ih' | plusMore _ _ ih ih' =>
    obtain ⟨w, reads⟩ := ih
    obtain ⟨v, reads'⟩ := ih'
    exact ⟨w ++ v, reads.trans reads'⟩

/-! ### What single parts do -/

theorem way_start_iff : Way start a b ↔ a.place.position = 0 ∧ b = a := by
  constructor
  · rintro ⟨⟩
    exact ⟨‹_›, rfl⟩
  · rintro ⟨first, rfl⟩
    exact .start first

theorem way_stop_iff : Way stop a b ↔ a.place.rest = [] ∧ b = a := by
  constructor
  · rintro ⟨⟩
    exact ⟨‹_›, rfl⟩
  · rintro ⟨last, rfl⟩
    exact .stop last

theorem way_boundary_iff :
    Way boundary a b ↔ Text.isBoundary a.place.before a.place.rest.head? = true ∧ b = a := by
  constructor
  · rintro ⟨⟩
    exact ⟨‹_›, rfl⟩
  · rintro ⟨bound, rfl⟩
    exact .boundary bound

theorem way_one_iff : Way (one k) a b ↔ ∃ c, k.holds c = true ∧ a.Reads [c] b := by
  constructor
  · intro way
    cases way with
    | one holds reads => exact ⟨_, holds, reads, rfl⟩
  · rintro ⟨c, holds, reads, spans⟩
    have way := Way.one holds reads
    rw [← spans] at way
    exact way

theorem way_group_iff {number : Nat} :
    Way (group number p) a b ↔ ∃ c, Way p a c ∧
      b = ⟨c.place, ⟨number, a.place.position, c.place.position⟩ :: c.spans⟩ := by
  constructor
  · intro way
    cases way with
    | group way => exact ⟨_, way, rfl⟩
  · rintro ⟨c, way, rfl⟩
    exact .group way

theorem way_opt_iff : Way (opt greedy p) a b ↔ b = a ∨ Way p a b := by
  constructor
  · intro way
    cases way with
    | optNone => exact .inl rfl
    | optSome way => exact .inr way
  · rintro (rfl | way)
    · exact .optNone
    · exact .optSome way

/-! ### What repeated classes do -/

/-- Repeating a class reads characters of it. -/
theorem way_star_one_iff :
    Way (star greedy (one k)) a b ↔ ∃ w, (∀ c ∈ w, k.holds c = true) ∧ a.Reads w b := by
  constructor
  · intro way
    generalize repeated : star greedy (one k) = p at way
    induction way with
    | starNone => exact ⟨[], by simp, Trail.reads_nil _⟩
    | starMore _ turn ih _ =>
      obtain ⟨w, all, reads⟩ := ih repeated
      cases repeated
      obtain ⟨c, holds, reads'⟩ := way_one_iff.mp turn
      refine ⟨w ++ [c], ?_, reads.trans reads'⟩
      exact List.forall_mem_append.mpr ⟨all, List.forall_mem_singleton.mpr holds⟩
    | _ => cases repeated
  · rintro ⟨w, all, reads⟩
    induction w using List.reverseRecOn generalizing b with
    | nil =>
      rw [reads.eq_of_nil]
      exact .starNone
    | append_singleton w c ih =>
      obtain ⟨all, last⟩ := List.forall_mem_append.mp all
      obtain ⟨m, reads, reads'⟩ := reads.exists_between
      exact .starMore (ih all reads) (way_one_iff.mpr ⟨c, last c List.mem_cons_self, reads'⟩)

/-- A class once or more reads characters of it, one at least. -/
theorem way_plus_one_iff :
    Way (plus greedy (one k)) a b ↔
      ∃ w, w ≠ [] ∧ (∀ c ∈ w, k.holds c = true) ∧ a.Reads w b := by
  constructor
  · intro way
    generalize repeated : plus greedy (one k) = p at way
    induction way with
    | plusOnce turn _ =>
      cases repeated
      obtain ⟨c, holds, reads⟩ := way_one_iff.mp turn
      exact ⟨[c], by simp, List.forall_mem_singleton.mpr holds, reads⟩
    | plusMore _ turn ih _ =>
      obtain ⟨w, some, all, reads⟩ := ih repeated
      cases repeated
      obtain ⟨c, holds, reads'⟩ := way_one_iff.mp turn
      refine ⟨w ++ [c], by simp, ?_, reads.trans reads'⟩
      exact List.forall_mem_append.mpr ⟨all, List.forall_mem_singleton.mpr holds⟩
    | _ => cases repeated
  · rintro ⟨w, some, all, reads⟩
    induction w using List.reverseRecOn generalizing b with
    | nil => exact absurd rfl some
    | append_singleton w c ih =>
      obtain ⟨all, last⟩ := List.forall_mem_append.mp all
      obtain ⟨m, reads, reads'⟩ := reads.exists_between
      have turn : Way (one k) m b := way_one_iff.mpr ⟨c, last c List.mem_cons_self, reads'⟩
      by_cases first : w = []
      · subst first
        rw [reads.eq_of_nil] at turn
        exact .plusOnce turn
      · exact .plusMore (ih first all reads) turn

/-! ### Which groups are closed -/

/-- Whether every way through the pattern closes the group. -/
def closes (number : Nat) : Pattern → Bool
  | group n p => n == number || p.closes number
  | seq p q => p.closes number || q.closes number
  | alt p q => p.closes number && q.closes number
  | plus _ p => p.closes number
  | _ => false

/-- What was closed before stays. -/
theorem Way.spans_suffix (h : Way p a b) : a.spans <:+ b.spans := by
  induction h with
  | empty | one | start | stop | boundary | optNone | starNone => exact List.suffix_rfl
  | altLeft _ ih | altRight _ ih | optSome _ ih | plusOnce _ ih => exact ih
  | seq _ _ ih ih' | starMore _ _ ih ih' | plusMore _ _ ih ih' => exact ih.trans ih'
  | group _ ih => exact ih.trans (List.suffix_cons _ _)

theorem Way.exists_span {number : Nat} (h : Way p a b) (closed : p.closes number = true) :
    ∃ span ∈ b.spans, span.group = number := by
  induction h with
  | empty | one | start | stop | boundary | optNone | optSome | starNone | starMore => cases closed
  | seq head tail ih ih' =>
    rcases Bool.or_eq_true_iff.mp closed with closed | closed
    · obtain ⟨span, there, same⟩ := ih closed
      exact ⟨span, tail.spans_suffix.subset there, same⟩
    · exact ih' closed
  | altLeft _ ih => exact ih (Bool.and_eq_true_iff.mp closed).1
  | altRight _ ih => exact ih (Bool.and_eq_true_iff.mp closed).2
  | plusOnce _ ih => exact ih closed
  | plusMore _ _ _ ih => exact ih closed
  | group _ ih =>
    rcases Bool.or_eq_true_iff.mp closed with same | closed
    · exact ⟨_, List.mem_cons_self, beq_iff_eq.mp same⟩
    · obtain ⟨span, there, same⟩ := ih closed
      exact ⟨span, List.mem_cons_of_mem _ there, same⟩

end Way

/-! ## Ways through sequences -/

/-- Some patterns can lead, one after the other, from the first trail to the second. -/
def Ways : List Pattern → Trail → Trail → Prop
  | [], a, b => b = a
  | p :: ps, a, c => ∃ b, Way p a b ∧ Ways ps b c

section Ways

variable {p : Pattern} {ps qs : List Pattern} {a b : Trail}

theorem ways_append_iff : Ways (ps ++ qs) a b ↔ ∃ m, Ways ps a m ∧ Ways qs m b := by
  induction ps generalizing a with
  | nil => simp [Ways]
  | cons p ps ih =>
    simp only [List.cons_append, Ways, ih]
    constructor
    · rintro ⟨c, way, m, ways, ways'⟩
      exact ⟨m, ⟨c, way, ways⟩, ways'⟩
    · rintro ⟨m, ⟨c, way, ways⟩, ways'⟩
      exact ⟨c, way, m, ways, ways'⟩

theorem ways_singleton_iff : Ways [p] a b ↔ Way p a b := by
  simp [Ways]

/-- A sequence leads where its parts lead. -/
theorem way_chain_iff : Way (chain ps) a b ↔ Ways ps a b := by
  cases ps with
  | nil =>
    constructor
    · rintro ⟨⟩
      rfl
    · rintro rfl
      exact .empty
  | cons p ps =>
    -- the chain is nested to the left, so the last part is taken off
    show Way (ps.foldl .seq p) a b ↔ _
    induction ps using List.reverseRecOn generalizing b with
    | nil => exact ways_singleton_iff.symm
    | append_singleton ps q ih =>
      rw [List.foldl_append, ← List.cons_append, ways_append_iff]
      show Way (.seq (ps.foldl .seq p) q) a b ↔ _
      constructor
      · intro way
        cases way with
        | seq head tail => exact ⟨_, ih.mp head, ways_singleton_iff.mpr tail⟩
      · rintro ⟨m, head, tail⟩
        exact .seq (ih.mpr head) (ways_singleton_iff.mp tail)

theorem ways_parts_iff : ∀ {p : Pattern} {a b : Trail}, Ways p.parts a b ↔ Way p a b := by
  intro p
  induction p with
  | empty =>
    intro a b
    have chained : Way (chain []) a b ↔ Ways [] a b := way_chain_iff
    exact chained.symm
  | seq p q ihp ihq =>
    intro a b
    rw [parts, ways_append_iff]
    constructor
    · rintro ⟨m, head, tail⟩
      exact .seq (ihp.mp head) (ihq.mp tail)
    · intro way
      cases way with
      | seq head tail => exact ⟨_, ihp.mpr head, ihq.mpr tail⟩
  | _ =>
    intro a b
    exact ways_singleton_iff

/-- **One pattern after another** leads where they lead one after the other. -/
theorem way_seqOf_iff : Way (seqOf ps) a b ↔ Ways ps a b := by
  rw [seqOf, way_chain_iff]
  induction ps generalizing a with
  | nil => rfl
  | cons p ps ih =>
    rw [List.flatMap_cons, ways_append_iff]
    constructor
    · rintro ⟨m, head, tail⟩
      exact ⟨m, ways_parts_iff.mp head, ih.mp tail⟩
    · rintro ⟨m, head, tail⟩
      exact ⟨m, ways_parts_iff.mpr head, ih.mpr tail⟩

end Ways

/-- A choice leads where its branches lead. -/
theorem way_choice_iff {ps : List Pattern} (some : ps ≠ []) {a b : Trail} :
    Way (choice ps) a b ↔ ∃ p ∈ ps, Way p a b := by
  induction ps with
  | nil => exact absurd rfl some
  | cons p ps ih =>
    simp only [List.mem_cons, exists_eq_or_imp]
    cases ps with
    | nil =>
      rw [choice]
      exact ⟨.inl, fun h => h.resolve_right fun ⟨_, there, _⟩ => List.not_mem_nil there⟩
    | cons q qs =>
      rw [← ih (List.cons_ne_nil q qs)]
      constructor
      · intro way
        cases way with
        | altLeft way => exact .inl way
        | altRight way => exact .inr way
      · rintro (way | way)
        · exact .altLeft way
        · exact .altRight way

/-! ## What is found is found on a way -/

section Sound

variable {p : Pattern} {greedy : Bool} {s t : State}

theorem mem_of_mem_distinctFrom {seen : Nat} {states : List State}
    (h : t ∈ distinctFrom seen states) : t ∈ states := by
  induction states generalizing seen with
  | nil => cases h
  | cons s states ih =>
    rw [distinctFrom] at h
    split at h
    · exact List.mem_cons_of_mem _ (ih h)
    · rcases List.mem_cons.mp h with rfl | h
      · exact List.mem_cons_self
      · exact List.mem_cons_of_mem _ (ih h)

theorem mem_of_mem_distinct {states : List State} (h : t ∈ distinct states) : t ∈ states :=
  mem_of_mem_distinctFrom h

/-- A decision leaves the trail as it is. -/
theorem mem_deciding {decision : Nat} {next : State → List State}
    (h : t ∈ s.deciding decision next) :
    ∃ u : State, u.trail = s.trail ∧ u.decided = decision :: s.decided ∧ t ∈ next u := by
  rw [State.deciding] at h
  split at h
  · cases h
  · exact ⟨{ s with decided := decision :: s.decided }, rfl, rfl, h⟩

theorem mem_prefer_iff {more none : List State} :
    t ∈ prefer greedy more none ↔ t ∈ more ∨ t ∈ none := by
  rw [prefer]
  split
  · exact List.mem_append
  · exact List.mem_append.trans or_comm

theorem mem_ordered_iff {states : List State} :
    t ∈ (if greedy then states.reverse else states) ↔ t ∈ states := by
  split
  · exact List.mem_reverse
  · exact Iff.rfl

/-- What holds after every turn holds of all that a repetition visits. -/
theorem forall_mem_visit {Q : Trail → Prop} {turn : State → List State} {decision : Nat}
    (step : ∀ s, Q s.trail → ∀ t ∈ turn s, Q t.trail) (fuel : Nat) (found : List State)
    (s : State) (old : ∀ u ∈ found, Q u.trail) (here : Q s.trail) :
    ∀ u ∈ visit turn greedy decision fuel found s, Q u.trail := by
  induction fuel generalizing found s with
  | zero => exact old
  | succ fuel ih =>
    rw [visit]
    split
    · exact old
    · -- the state itself is visited, and then whatever its next turn leads to
      have own : Q (State.trail { s with decided := decision :: s.decided }) := here
      have further : ∀ (next found : List State), (∀ u ∈ next, Q u.trail) →
          (∀ u ∈ found, Q u.trail) →
          ∀ u ∈ next.foldl (visit turn greedy decision fuel) found, Q u.trail := by
        intro next
        induction next with
        | nil => exact fun _ _ old => old
        | cons t next more =>
          intro found all old
          obtain ⟨first, rest⟩ := List.forall_mem_cons.mp all
          exact more _ rest (ih found t old first)
      have next : ∀ u ∈ (turn { s with decided := decision :: s.decided }).filter
          fun t => s.position < t.position, Q u.trail :=
        fun u hu => step _ own u (List.mem_filter.mp hu).1
      dsimp only
      split
      · exact List.forall_mem_cons.mpr ⟨own, further _ _ next old⟩
      · exact further _ _ next (List.forall_mem_cons.mpr ⟨own, old⟩)

theorem way_of_mem_runEnds {k : CharClass} {decision : Nat} (h : t ∈ runEnds k decision s) :
    Way (plus greedy (one k)) s.trail t.trail := by
  suffices run : ∀ (r : List Char) (s : State), s.place.rest = r → t ∈ runEnds.go k decision r s →
      ∃ w, w ≠ [] ∧ (∀ c ∈ w, k.holds c = true) ∧ s.trail.Reads w t.trail from
    way_plus_one_iff.mpr (run _ s rfl h)
  intro r
  induction r with
  | nil =>
    intro s _ h
    cases h
  | cons c r ih =>
    intro s rest h
    rw [runEnds.go] at h
    split at h
    · next holds =>
      have one : s.place.Reads [c] ⟨s.position + 1, some c, r⟩ := Place.reads_cons rest
      rcases List.mem_cons.mp h with rfl | h
      · exact ⟨[c], by simp, List.forall_mem_singleton.mpr holds, one, rfl⟩
      · obtain ⟨w, -, all, reads, spans⟩ := ih _ rfl h
        exact ⟨c :: w, by simp, List.forall_mem_cons.mpr ⟨holds, all⟩, one.trans reads, spans⟩
    · cases h

theorem way_star_of_plus {a b : Trail} (h : Way (plus greedy p) a b) : Way (star greedy p) a b := by
  generalize repeated : plus greedy p = q at h
  induction h with
  | plusOnce turn _ =>
    cases repeated
    exact .starMore .starNone turn
  | plusMore _ turn ih _ =>
    cases repeated
    exact .starMore (ih rfl) turn
  | _ => cases repeated

/-- The states after one turn or more are on ways of one turn or more. -/
theorem way_of_mem_plusEnds {turn : State → List State} {decision : Nat}
    (step : ∀ s, ∀ t ∈ turn s, Way p s.trail t.trail) (h : t ∈ plusEnds turn greedy decision s) :
    Way (plus greedy p) s.trail t.trail := by
  have more : ∀ u, Way (plus greedy p) s.trail u.trail → ∀ v ∈ turn u,
      Way (plus greedy p) s.trail v.trail := fun u way v hv => .plusMore way (step u v hv)
  have all : ∀ (next found : List State), (∀ u ∈ next, Way (plus greedy p) s.trail u.trail) →
      (∀ u ∈ found, Way (plus greedy p) s.trail u.trail) →
      ∀ u ∈ next.foldl (visit turn greedy decision (s.place.rest.length + 1)) found,
        Way (plus greedy p) s.trail u.trail := by
    intro next
    induction next with
    | nil => exact fun _ _ old => old
    | cons t next ih =>
      intro found ways old
      obtain ⟨first, rest⟩ := List.forall_mem_cons.mp ways
      exact ih _ rest (forall_mem_visit more _ found t old first)
  refine all (turn s) [] (fun u hu => .plusOnce (step s u hu)) (by simp) t ?_
  exact List.mem_reverse.mp h

/-- **Whatever is found is found on a way.** -/
theorem way_of_mem_ends {here : Nat} (h : t ∈ p.ends here s) : Way p s.trail t.trail := by
  induction p generalizing here s t with
  | empty =>
    cases List.mem_singleton.mp h
    exact .empty
  | one k =>
    rw [ends, oneEnds] at h
    split at h
    · cases h
    · next rest =>
      split at h
      · next holds =>
        cases List.mem_singleton.mp h
        exact .one holds (Place.reads_cons rest)
      · cases h
  | start =>
    rw [ends] at h
    split at h
    · next first =>
      cases List.mem_singleton.mp h
      exact .start first
    · cases h
  | stop =>
    rw [ends] at h
    split at h
    · next last =>
      cases List.mem_singleton.mp h
      exact .stop (List.isEmpty_iff.mp last)
    · cases h
  | boundary =>
    rw [ends] at h
    split at h
    · next bound =>
      cases List.mem_singleton.mp h
      exact .boundary bound
    · cases h
  | seq p q ihp ihq =>
    obtain ⟨m, head, tail⟩ := List.mem_flatMap.mp (mem_of_mem_distinct h)
    exact .seq (ihp head) (ihq tail)
  | alt p q ihp ihq =>
    obtain ⟨u, same, -, h⟩ := mem_deciding h
    rw [← same]
    rcases List.mem_append.mp (mem_of_mem_distinct h) with left | right
    · exact .altLeft (ihp left)
    · exact .altRight (ihq right)
  | opt greedy p ih =>
    obtain ⟨u, same, -, h⟩ := mem_deciding h
    rw [← same]
    rcases mem_prefer_iff.mp (mem_of_mem_distinct h) with some | none
    · exact .optSome (ih some)
    · cases List.mem_singleton.mp none
      exact .optNone
  | star greedy p ih =>
    by_cases single : ∃ k, p = one k
    · obtain ⟨k, rfl⟩ := single
      obtain ⟨u, same, -, h⟩ := mem_deciding h
      rw [← same]
      rcases mem_prefer_iff.mp h with more | none
      · exact way_star_of_plus (way_of_mem_runEnds (mem_ordered_iff.mp more))
      · cases List.mem_singleton.mp none
        exact .starNone
    · rw [ends] at h
      · split at h
        · obtain ⟨u, same, -, h⟩ := mem_deciding h
          rw [← same]
          rcases mem_prefer_iff.mp (mem_of_mem_distinct h) with more | none
          · exact way_star_of_plus (way_of_mem_plusEnds (fun _ _ turn => ih turn) more)
          · cases List.mem_singleton.mp none
            exact .starNone
        · refine forall_mem_visit (Q := Way (star greedy p) s.trail) ?_ _ [] s (by simp) .starNone
            t (List.mem_reverse.mp h)
          exact fun u turns v turn => .starMore turns (ih turn)
      · exact fun k same => single ⟨k, same⟩
  | plus greedy p ih =>
    by_cases single : ∃ k, p = one k
    · obtain ⟨k, rfl⟩ := single
      exact way_of_mem_runEnds (mem_ordered_iff.mp h)
    · rw [ends] at h
      · exact way_of_mem_plusEnds (fun _ _ turn => ih turn) h
      · exact fun k same => single ⟨k, same⟩
  | group number p ih =>
    obtain ⟨u, inside, rfl⟩ := List.mem_map.mp h
    exact .group (ih inside)

end Sound

end LiveLint.Pattern
