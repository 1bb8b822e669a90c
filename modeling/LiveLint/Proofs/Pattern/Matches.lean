import LiveLint.Pattern.Match
import LiveLint.Proofs.Pattern.Complete

/-!
# Matches and ways

A match is made on a way through its pattern (`way_of_matchAt?`), and where a pattern that repeats
nothing but classes has a way, it has a match (`exists_matchAt?`). All matches of a text are made
at places of it, one at a place (`exists_place_of_mem_allMatches`), and what matches at the first
place that has a match is among them (`mem_allMatches_of_first`).
-/

namespace LiveLint.Pattern

variable {p : Pattern} {place : Place} {m : Match}

/-! ## One place -/

/-- A match is made on a way. -/
theorem way_of_matchAt? (h : p.matchAt? place = some m) :
    m.start = place.position ∧ Way p ⟨place, []⟩ m.final.trail := by
  obtain ⟨final, head, rfl⟩ := Option.map_eq_some_iff.mp h
  exact ⟨rfl, way_of_mem_ends (List.mem_of_mem_head? head)⟩

/-- Where there is a way, there is a match. -/
theorem exists_matchAt? (simple : p.repeatsOnlyClasses = true) {b : Trail}
    (way : Way p ⟨place, []⟩ b) : ∃ m, p.matchAt? place = some m := by
  have fresh : (State.start place).Fresh 1 := fun d made => absurd made List.not_mem_nil
  have complete : FindsWays p 1 := findsWays_of_repeatsOnlyClasses simple Nat.one_pos
  obtain ⟨t, found, -⟩ := complete way (s := .start place) rfl fresh
  obtain ⟨final, head⟩ : ∃ final, (p.ends 1 (.start place)).head? = some final :=
    Option.ne_none_iff_exists'.mp fun none => by
      rw [List.head?_eq_none_iff.mp none] at found
      cases found
  exact ⟨⟨place.position, final⟩, by rw [matchAt?, head]; rfl⟩

/-- A run of a class, which may be empty, is preferred as far as it goes. -/
theorem exists_head?_star {k : CharClass} {here : Nat} {s : State} {w : List Char} {b : Place}
    (fresh : here ∉ s.decided) (all : ∀ c ∈ w, k.holds c = true) (reads : s.place.Reads w b)
    (stop : ∀ c ∈ b.rest.head?, k.holds c = false) :
    ∃ t, ((star true (one k)).ends here s).head? = some t ∧ t.place = b := by
  have decides : (star true (one k)).ends here s =
      (runEnds k here { s with decided := here :: s.decided }).reverse ++
        [{ s with decided := here :: s.decided }] := by
    rw [ends, State.deciding_of_not_mem fresh]
    rfl
  rw [decides]
  by_cases none : w = []
  · subst none
    have place := reads.eq_of_nil
    rw [runEnds_of_stop fun c hc => stop c (by rwa [place])]
    exact ⟨_, rfl, place.symm⟩
  · obtain ⟨t, longest, place⟩ :=
      exists_getLast?_runEnds here (s := { s with decided := here :: s.decided }) none all reads
        stop
    refine ⟨t, ?_, place⟩
    rw [List.head?_append, List.head?_reverse, longest]
    rfl

/-- A character and a run of a class are matched as far as the run goes. -/
theorem exists_matchAt?_of_run {j k : CharClass} {c : Char} {w : List Char} {b : Place}
    (first : j.holds c = true) (nonempty : w ≠ []) (all : ∀ d ∈ w, k.holds d = true)
    (reads : place.Reads (c :: w) b) (stop : ∀ d ∈ b.rest.head?, k.holds d = false) :
    ∃ m, (seq (one j) (plus true (one k))).matchAt? place = some m ∧ m.final.place = b := by
  have rest : place.rest = c :: (w ++ b.rest) := reads.rest
  obtain ⟨a, taken, further⟩ := Place.Reads.exists_between (w := [c]) reads
  cases (Place.reads_cons rest).eq_of_position taken taken.position.symm
  obtain ⟨t, longest, place'⟩ := exists_getLast?_runEnds 3
    (s := (State.start place).take c (w ++ b.rest)) nonempty all further stop
  refine ⟨⟨place.position, t⟩, ?_, place'⟩
  have head : (one j).ends 2 (.start place) = [(State.start place).take c (w ++ b.rest)] :=
    oneEnds_cons rest first
  have ends : ((seq (one j) (plus true (one k))).ends 1 (.start place)).head? = some t := by
    rw [ends, head, head?_distinct, List.flatMap_singleton]
    exact List.head?_reverse.trans longest
  rw [matchAt?, ends]
  rfl

/-! ## The first place -/

theorem find?_of_matchAt? (h : p.matchAt? place = some m) : p.find? place = some m := by
  obtain ⟨position, before, rest⟩ := place
  cases rest with
  | nil => exact h
  | cons c r =>
    rw [find?, findFrom, h]

theorem find?_of_none {c : Char} {r : List Char} (rest : place.rest = c :: r)
    (h : p.matchAt? place = none) :
    p.find? place = p.find? ⟨place.position + 1, some c, r⟩ := by
  obtain ⟨position, before, _⟩ := place
  cases rest
  rw [find?, findFrom, h]
  rfl

/-- What is found is a match further on. -/
theorem exists_place_of_find? (h : p.find? place = some m) :
    ∃ w a, place.Reads w a ∧ p.matchAt? a = some m := by
  generalize text : place.rest = r
  induction r generalizing place with
  | nil =>
    obtain ⟨position, before, _⟩ := place
    cases text
    exact ⟨[], _, Place.reads_nil _, h⟩
  | cons c r ih =>
    cases here : p.matchAt? place with
    | some m' =>
      rw [find?_of_matchAt? here] at h
      cases h
      exact ⟨[], place, Place.reads_nil _, here⟩
    | none =>
      rw [find?_of_none text here] at h
      obtain ⟨w, a, reads, found⟩ := ih h rfl
      exact ⟨c :: w, a, (Place.reads_cons text).trans reads, found⟩

/-- The first place that has a match is found. -/
theorem find?_of_first {w : List Char} {a : Place} (reads : place.Reads w a)
    (h : p.matchAt? a = some m)
    (first : ∀ v b, v <+: w → v ≠ w → place.Reads v b → p.matchAt? b = none) :
    p.find? place = some m := by
  induction w generalizing place with
  | nil =>
    rw [reads.eq_of_nil] at h
    exact find?_of_matchAt? h
  | cons c w ih =>
    have rest : place.rest = c :: (w ++ a.rest) := reads.rest
    have here : p.matchAt? place = none :=
      first [] place List.nil_prefix (by simp) (Place.reads_nil _)
    rw [find?_of_none rest here]
    obtain ⟨b, one, further⟩ := Place.Reads.exists_between (w := [c]) reads
    cases (Place.reads_cons rest).eq_of_position one one.position.symm
    refine ih further fun v b inside proper reads => ?_
    refine first (c :: v) b ((List.prefix_cons_inj c).mpr inside) ?_ (one.trans reads)
    exact fun same => proper (List.cons.inj same).2

/-- Something is found just if there is a way from some place on. -/
theorem isSome_find?_iff (simple : p.repeatsOnlyClasses = true) :
    (p.find? place).isSome = true ↔ ∃ w a, place.Reads w a ∧ ∃ b, Way p ⟨a, []⟩ b := by
  constructor
  · intro found
    obtain ⟨m, found⟩ := Option.isSome_iff_exists.mp found
    obtain ⟨w, a, reads, here⟩ := exists_place_of_find? found
    exact ⟨w, a, reads, _, (way_of_matchAt? here).2⟩
  · rintro ⟨w, a, reads, b, way⟩
    obtain ⟨m, there⟩ := exists_matchAt? simple way
    induction w generalizing place with
    | nil =>
      rw [reads.eq_of_nil] at there
      rw [find?_of_matchAt? there]
      rfl
    | cons c w ih =>
      cases here : p.matchAt? place with
      | some m =>
        rw [find?_of_matchAt? here]
        rfl
      | none =>
        have rest : place.rest = c :: (w ++ a.rest) := reads.rest
        obtain ⟨d, one, further⟩ := Place.Reads.exists_between (w := [c]) reads
        cases (Place.reads_cons rest).eq_of_position one one.position.symm
        rw [find?_of_none rest here]
        exact ih further

/-! ## All matches -/

theorem exists_place_of_next? (h : p.next? place = some m) :
    ∃ w a, place.Reads w a ∧ p.matchAt? a = some m := by
  rw [next?] at h
  split at h
  · cases h
  · next m' found =>
    split at h
    · split at h
      · cases h
      · next c r rest =>
        obtain ⟨w, a, reads, here⟩ := exists_place_of_find? h
        exact ⟨c :: w, a, (Place.reads_cons rest).trans reads, here⟩
    · cases h
      exact exists_place_of_find? found

theorem exists_place_of_mem_matchesAfter {fuel : Nat} (h : m ∈ p.matchesAfter fuel place) :
    ∃ w a, place.Reads w a ∧ p.matchAt? a = some m := by
  induction fuel generalizing place with
  | zero => cases h
  | succ fuel ih =>
    rw [matchesAfter] at h
    split at h
    · cases h
    · next m' next =>
      obtain ⟨w, a, reads, here⟩ := exists_place_of_next? next
      rcases List.mem_cons.mp h with rfl | h
      · exact ⟨w, a, reads, here⟩
      · obtain ⟨v, through⟩ := (way_of_matchAt? here).2.reads
        obtain ⟨u, b, further, there⟩ := ih h
        exact ⟨_, b, (reads.trans through).trans further, there⟩

variable {cs : List Char}

/-- Every match of a text is made at a place of it. -/
theorem exists_place_of_mem_allMatches (h : m ∈ p.allMatches cs) :
    ∃ w a, (Place.start cs).Reads w a ∧ p.matchAt? a = some m := by
  rw [allMatches] at h
  split at h
  · cases h
  · next m' found =>
    obtain ⟨w, a, reads, here⟩ := exists_place_of_find? found
    rcases List.mem_cons.mp h with rfl | h
    · exact ⟨w, a, reads, here⟩
    · obtain ⟨v, through⟩ := (way_of_matchAt? here).2.reads
      obtain ⟨u, b, further, there⟩ := exists_place_of_mem_matchesAfter h
      exact ⟨_, b, (reads.trans through).trans further, there⟩

/-- Two matches of a text do not start at one place. -/
theorem eq_of_mem_allMatches {m' : Match} (h : m ∈ p.allMatches cs) (h' : m' ∈ p.allMatches cs)
    (same : m.start = m'.start) : m = m' := by
  obtain ⟨w, a, reads, here⟩ := exists_place_of_mem_allMatches h
  obtain ⟨w', a', reads', here'⟩ := exists_place_of_mem_allMatches h'
  have position : a.position = a'.position := by
    rw [← (way_of_matchAt? here).1, ← (way_of_matchAt? here').1, same]
  rw [reads.eq_of_position reads' position] at here
  exact Option.some.inj (here.symm.trans here')

/-- The match at the first place that has one is a match of the text. -/
theorem mem_allMatches_of_first {w : List Char} {a : Place} (reads : (Place.start cs).Reads w a)
    (h : p.matchAt? a = some m)
    (first : ∀ v b, v <+: w → v ≠ w → (Place.start cs).Reads v b → p.matchAt? b = none) :
    m ∈ p.allMatches cs := by
  rw [allMatches, find?_of_first reads h first]
  exact List.mem_cons_self

end LiveLint.Pattern
