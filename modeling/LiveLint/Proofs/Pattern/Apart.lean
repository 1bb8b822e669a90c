import LiveLint.Proofs.Pattern.Matches

/-!
# Matches lie apart

Of the matches of a text none starts before the one in front of it has ended
(`pairwise_allMatches`), a match ends inside the text (`stop_le_of_mem_allMatches`), and what a
group stands for lies inside its match (`Match.within_of_span?`). All three are told by the ways
through a pattern, which only go on in the text.
-/

namespace LiveLint.Pattern

variable {p : Pattern} {place : Place} {m : Match} {cs : List Char}

/-! ## Groups lie on the way -/

theorem Place.Reads.le {a b : Place} {w : List Char} (h : a.Reads w b) :
    a.position ≤ b.position := by
  rw [h.position]
  exact Nat.le_add_right _ _

theorem Way.le {a b : Trail} (h : Way p a b) : a.place.position ≤ b.place.position := by
  obtain ⟨w, reads⟩ := h.reads
  exact reads.le

/-- What a group stands for lies between two positions. -/
structure Span.Within (span : Span) (first last : Nat) : Prop where
  first_le : first ≤ span.start
  start_le : span.start ≤ span.stop
  stop_le : span.stop ≤ last

theorem Span.Within.widen {span : Span} {first last first' last' : Nat}
    (h : span.Within first last) (before : first' ≤ first) (behind : last ≤ last') :
    span.Within first' last' where
  first_le := Nat.le_trans before h.first_le
  start_le := h.start_le
  stop_le := Nat.le_trans h.stop_le behind

/-- A group that was closed on a way lies on that way. -/
theorem Way.within {a b : Trail} (h : Way p a b) :
    ∀ span ∈ b.spans, span ∈ a.spans ∨ span.Within a.place.position b.place.position := by
  induction h with
  | empty | one | start | stop | boundary | optNone | starNone => exact fun _ hs => .inl hs
  | altLeft _ ih | altRight _ ih | optSome _ ih | plusOnce _ ih => exact ih
  | seq front back ih ih' | starMore front back ih ih' | plusMore front back ih ih' =>
    intro span hs
    rcases ih' span hs with hs | within
    · exact (ih span hs).imp_right fun within => within.widen (Nat.le_refl _) back.le
    · exact .inr (within.widen front.le (Nat.le_refl _))
  | group way ih =>
    intro span hs
    rcases List.mem_cons.mp hs with rfl | hs
    · exact .inr ⟨Nat.le_refl _, way.le, Nat.le_refl _⟩
    · exact ih span hs

/-! ## Matches and their groups -/

theorem start_le_stop (h : p.matchAt? place = some m) : m.start ≤ m.stop := by
  obtain ⟨start, way⟩ := way_of_matchAt? h
  rw [start]
  exact way.le

/-- What a group stands for lies inside the match. -/
theorem Match.within_of_span? (h : p.matchAt? place = some m) {group start stop : Nat}
    (found : m.span? group = some (start, stop)) :
    m.start ≤ start ∧ start ≤ stop ∧ stop ≤ m.stop := by
  rw [Match.span?] at found
  split at found
  · cases found
    exact ⟨Nat.le_refl _, start_le_stop h, Nat.le_refl _⟩
  · obtain ⟨span, there, same⟩ := Option.map_eq_some_iff.mp found
    cases same
    obtain ⟨first, way⟩ := way_of_matchAt? h
    rcases way.within span (List.mem_of_find?_eq_some there) with none | within
    · cases none
    · rw [first]
      exact ⟨within.first_le, within.start_le, within.stop_le⟩

/-! ## All matches of a text -/

theorem le_start_of_mem_matchesAfter {fuel : Nat} (h : m ∈ p.matchesAfter fuel place) :
    place.position ≤ m.start := by
  obtain ⟨w, a, reads, here⟩ := exists_place_of_mem_matchesAfter h
  rw [(way_of_matchAt? here).1]
  exact reads.le

theorem pairwise_matchesAfter (fuel : Nat) (place : Place) :
    (p.matchesAfter fuel place).Pairwise (·.stop ≤ ·.start) := by
  induction fuel generalizing place with
  | zero => exact .nil
  | succ fuel ih =>
    rw [matchesAfter]
    split
    · exact .nil
    · next m _ => exact .cons (fun _ later => le_start_of_mem_matchesAfter later) (ih m.final.place)

/-- **Matches lie apart**, in their order. -/
theorem pairwise_allMatches (p : Pattern) (cs : List Char) :
    (p.allMatches cs).Pairwise (·.stop ≤ ·.start) := by
  rw [allMatches]
  split
  · exact .nil
  · exact .cons (fun _ later => le_start_of_mem_matchesAfter later) (pairwise_matchesAfter _ _)

/-- A match ends inside the text. -/
theorem stop_le_of_mem_allMatches (h : m ∈ p.allMatches cs) : m.stop ≤ cs.length := by
  obtain ⟨w, a, before, here⟩ := exists_place_of_mem_allMatches h
  obtain ⟨v, through⟩ := (way_of_matchAt? here).2.reads
  have reads : (Place.start cs).Reads (w ++ v) m.final.place := before.trans through
  have inside : w ++ v <+: cs := ⟨m.final.place.rest, reads.rest.symm⟩
  have position : m.stop = 0 + (w ++ v).length := reads.position
  rw [position, Nat.zero_add]
  exact inside.length_le

end LiveLint.Pattern
