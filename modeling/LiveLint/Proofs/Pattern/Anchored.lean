import LiveLint.Proofs.Lists
import LiveLint.Proofs.Pattern.Matches

/-!
# Patterns of whole lines

A pattern that begins at the start of a text matches there or nowhere (`Anchored.find?_eq`), and
what its groups stand for is what was read between two places (`Place.Reads.slice`).

Where there are several ways to one place, the match is made on the preferred one. `Preferred`
follows it part by part, from the whole pattern (`preferred_of_matchAt?`) to a greedy run, which
takes all that it can if the rest of the pattern can do with what is left
(`Preferred.of_longest`).
-/

namespace LiveLint.Pattern

/-! ## One place to start from -/

/-- The pattern leads nowhere but from the start of a text, and repeats nothing but classes. -/
structure Anchored (p : Pattern) : Prop where
  initial : ∀ a b : Trail, Way p a b → a.place.position = 0
  simple : p.repeatsOnlyClasses = true

theorem anchored_seqOf {ps : List Pattern}
    (simple : (seqOf (.start :: ps)).repeatsOnlyClasses = true) :
    Anchored (seqOf (.start :: ps)) := by
  refine ⟨?_, simple⟩
  intro a b way
  obtain ⟨m, starts, -⟩ := way_seqOf_iff.mp way
  exact (way_start_iff.mp starts).1

section Anchored

variable {p : Pattern} {cs : List Char}

theorem Anchored.find?_eq (h : Anchored p) (cs : List Char) :
    p.find? (.start cs) = p.matchAt? (.start cs) := by
  cases found : p.find? (.start cs) with
  | none =>
    cases here : p.matchAt? (.start cs) with
    | none => rfl
    | some m =>
      rw [find?_of_matchAt? here] at found
      cases found
  | some m =>
    obtain ⟨w, a, reads, here⟩ := exists_place_of_find? found
    rw [reads.eq_of_position (Place.reads_nil _) (h.initial _ _ (way_of_matchAt? here).2)] at here
    exact here.symm

/-- It is found in a text if it has a way from the start. -/
theorem Anchored.isSome_find?_iff (h : Anchored p) :
    (p.find? (.start cs)).isSome = true ↔ ∃ b, Way p ⟨.start cs, []⟩ b := by
  rw [h.find?_eq, Option.isSome_iff_exists]
  constructor
  · rintro ⟨m, here⟩
    exact ⟨_, (way_of_matchAt? here).2⟩
  · rintro ⟨b, way⟩
    exact exists_matchAt? h.simple way

end Anchored

/-! ## What groups stand for -/

/-- What stands between two positions of a text. -/
def slice (cs : List Char) (start stop : Nat) : List Char :=
  (cs.drop start).take (stop - start)

theorem Place.Reads.slice {cs u w : List Char} {a b : Place} (h : (Place.start cs).Reads u a)
    (h' : a.Reads w b) : Pattern.slice cs a.position b.position = w := by
  have text : cs = u ++ (w ++ b.rest) := by
    rw [← h'.rest]
    exact h.rest
  have start : a.position = u.length := by
    rw [h.position]
    exact Nat.zero_add _
  rw [Pattern.slice, h'.position, Nat.add_sub_cancel_left, start, text, List.drop_left,
    List.take_left]

/-- There is one place at the end of a text. -/
theorem Place.Reads.eq_of_rest {u w : List Char} {a b c : Place} (h : a.Reads u b)
    (h' : a.Reads w c) (last : b.rest = []) (last' : c.rest = []) : b = c := by
  have same : u = w := by
    have text := h.rest.symm.trans h'.rest
    rw [last, last', List.append_nil, List.append_nil] at text
    exact text
  exact h.eq_of_position h' (by rw [h.position, h'.position, same])

/-- What a group stands for in the text where the way was taken. -/
def Trail.text? (b : Trail) (cs : List Char) (group : Nat) : Option (List Char) :=
  (b.spans.find? (·.group == group)).map fun span => slice cs span.start span.stop

/-- What a group stands for in the text where the match was found. -/
def Match.text? (m : Match) (cs : List Char) (group : Nat) : Option (List Char) :=
  (m.span? group).map fun (start, stop) => slice cs start stop

theorem Match.text?_eq {m : Match} {group : Nat} (numbered : group ≠ 0) (cs : List Char) :
    m.text? cs group = m.final.trail.text? cs group := by
  rw [text?, span?, if_neg numbered, Option.map_map]
  rfl

/-- The pattern reads these words and closes no group. -/
def Spells (p : Pattern) (W : List Char → Prop) : Prop :=
  ∀ a b : Trail, Way p a b ↔ ∃ w, W w ∧ a.Reads w b

section Group

variable {p : Pattern} {W : List Char → Prop} {cs u w : List Char} {a b : Trail} {number : Nat}

/-- A group stands for the word that is read in it. -/
theorem exists_text_of_way_group (spells : p.Spells W) (h : (Place.start cs).Reads u a.place)
    (way : Way (group number p) a b) :
    ∃ w, W w ∧ a.place.Reads w b.place ∧ b.text? cs number = some w ∧
      ∀ other, other ≠ number → b.text? cs other = a.text? cs other := by
  obtain ⟨m, inner, rfl⟩ := way_group_iff.mp way
  obtain ⟨w, isWord, reads⟩ := (spells a m).mp inner
  refine ⟨w, isWord, reads.place, ?_, ?_⟩
  · rw [Trail.text?, List.find?_cons_of_pos (by simp), Option.map_some, h.slice reads.place]
  · intro other apart
    rw [Trail.text?, List.find?_cons_of_neg (by simpa using apart.symm), reads.spans, Trail.text?]

theorem exists_way_group (number : Nat) (spells : p.Spells W) (isWord : W w) {place : Place}
    (reads : a.place.Reads w place) :
    ∃ b, Way (group number p) a b ∧ b.place = place := by
  have inner : Way p a ⟨place, a.spans⟩ := (spells _ _).mpr ⟨w, isWord, reads, rfl⟩
  exact ⟨_, way_group_iff.mpr ⟨_, inner, rfl⟩, rfl⟩

end Group

/-! ## The preferred way -/

/-- Of the states that the pattern comes to at this position, `t` is the preferred one. -/
def Preferred (p : Pattern) (here : Nat) (s t : State) : Prop :=
  (p.ends here s).find? (·.isAt t.position) = some t

section Preferred

variable {p q : Pattern} {here : Nat} {s t : State}

theorem Preferred.mem (h : Preferred p here s t) : t ∈ p.ends here s :=
  List.mem_of_find?_eq_some h

/-- A match up to the end of the text is made on the preferred way there. -/
theorem preferred_of_matchAt? {place : Place} {m : Match}
    (h : (seq p stop).matchAt? place = some m) : Preferred p 2 (.start place) m.final := by
  obtain ⟨final, head, rfl⟩ := Option.map_eq_some_iff.mp h
  rw [ends, head?_distinct, List.head?_flatMap] at head
  obtain ⟨before, t, after, parts, last, none⟩ := List.findSome?_eq_some_iff.mp head
  rw [ends] at last
  split at last
  · next stops =>
    cases last
    refine List.find?_eq_some_iff_append.mpr ⟨beq_iff_eq.mpr rfl, before, after, parts, ?_⟩
    intro u hu
    -- at one position the texts that follow are the same, and there is none
    rw [Bool.not_eq_true', ← Bool.not_eq_true]
    intro same
    have there : final ∈ p.ends 2 (.start place) := by simp [parts]
    have there' : u ∈ p.ends 2 (.start place) := by simp [parts, hu]
    obtain ⟨w, reads⟩ := (way_of_mem_ends there).reads
    obtain ⟨v, reads'⟩ := (way_of_mem_ends there').reads
    have place' : u.place = final.place := reads'.eq_of_position reads (beq_iff_eq.mp same)
    have found := none u hu
    rw [ends, place', if_pos stops] at found
    cases found
  · cases last

theorem Preferred.exists_between (h : Preferred (seq p q) here s t) :
    ∃ m ∈ p.ends (2 * here) s, Preferred q (2 * here + 1) m t := by
  rw [Preferred, ends, find?_distinct, List.find?_flatMap] at h
  exact List.exists_of_findSome?_eq_some h

theorem Preferred.of_opt (h : Preferred (opt true p) here s t) :
    t.trail = s.trail ∨ ∃ u : State, u.trail = s.trail ∧ Preferred p (2 * here) u t := by
  rw [Preferred, ends, State.deciding] at h
  split at h
  · cases h
  · rw [find?_distinct, prefer, if_pos rfl, List.find?_append, Option.or_eq_some_iff] at h
    rcases h with some | ⟨-, none⟩
    · exact .inr ⟨{ s with decided := here :: s.decided }, rfl, some⟩
    · left
      cases List.mem_singleton.mp (List.mem_of_find?_eq_some none)
      rfl

/-- **A greedy run is the longest there is**, if the rest of the pattern leads on from its end. -/
theorem Preferred.of_longest {k : CharClass} {v u : State}
    (h : Preferred (seq (plus true (one k)) q) here s t)
    (longest : (runEnds k (2 * here) s).getLast? = some v)
    (onward : u ∈ q.ends (2 * here + 1) v) (same : u.position = t.position) :
    Preferred q (2 * here + 1) v t := by
  rw [Preferred, ends, find?_distinct, List.find?_flatMap] at h
  have runs : (plus true (one k)).ends (2 * here) s = (runEnds k (2 * here) s).reverse := rfl
  obtain ⟨shorter, reversed⟩ : ∃ shorter, (runEnds k (2 * here) s).reverse = v :: shorter := by
    rw [← List.head?_reverse] at longest
    exact List.head?_eq_some_iff.mp longest
  obtain ⟨w, found⟩ : ∃ w, (q.ends (2 * here + 1) v).find? (·.isAt t.position) = some w :=
    Option.isSome_iff_exists.mp (List.find?_isSome.mpr ⟨u, onward, beq_iff_eq.mpr same⟩)
  rw [runs, reversed, List.findSome?_cons, found] at h
  rw [Preferred, found]
  exact h

/-- A greedy run takes all that it can: what follows it is not of the class. -/
theorem Preferred.exists_run {k : CharClass}
    (h : Preferred (seq (plus true (one k)) q) here s t) (simple : q.repeatsOnlyClasses = true)
    (onward : ∀ v : Trail, (∃ w, s.trail.Reads w v) → ∃ b, Way q v b ∧ b.place = t.place) :
    ∃ w v, w ≠ [] ∧ (∀ c ∈ w, k.holds c = true) ∧ s.trail.Reads w v ∧
      (∀ c ∈ v.place.rest.head?, k.holds c = false) ∧ Way q v t.trail := by
  -- some run there is, so the longest one is not empty
  have some : s.place.rest.takeWhile k.holds ≠ [] := by
    have way := way_of_mem_ends h.mem
    cases way with
    | seq head tail =>
      obtain ⟨w, some, all, reads⟩ := way_plus_one_iff.mp head
      have rest : s.place.rest = w ++ _ := reads.place.rest
      rw [rest, List.takeWhile_append_of_pos all]
      exact List.append_ne_nil_of_left_ne_nil some _
  have run := Text.run_takeWhile k.holds s.place.rest
  have parted := (List.takeWhile_append_dropWhile (p := k.holds) (l := s.place.rest)).symm
  obtain ⟨b, reads, rest⟩ := Place.exists_reads parted
  rw [← rest] at run
  obtain ⟨v, longest, rfl⟩ := exists_getLast?_runEnds (2 * here) some run.all reads run.ends
  have there : v ∈ runEnds k (2 * here) s := List.mem_of_getLast? longest
  have step : Way (plus true (one k)) s.trail v.trail := way_of_mem_runEnds there
  obtain ⟨_, -, -, step⟩ := way_plus_one_iff.mp step
  obtain ⟨b, way, place⟩ := onward v.trail ⟨_, reads, step.spans⟩
  have fresh : v.Fresh (2 * here + 1) := by
    intro d made inside
    rw [decided_of_mem_runEnds there] at made
    cases List.mem_singleton.mp made
    have := inside.le
    omega
  have complete : FindsWays q (2 * here + 1) := findsWays_of_repeatsOnlyClasses simple (by omega)
  obtain ⟨u, found, place'⟩ := complete way rfl fresh
  have same : u.position = t.position := by rw [State.position, place', place, State.position]
  exact ⟨_, v.trail, some, run.all, ⟨reads, step.spans⟩, run.ends,
    way_of_mem_ends (h.of_longest longest found same).mem⟩

end Preferred

end LiveLint.Pattern
