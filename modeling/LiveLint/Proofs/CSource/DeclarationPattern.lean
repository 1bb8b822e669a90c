import LiveLint.Proofs.CSource.WordPatterns
import LiveLint.Proofs.Pattern.Turns

/-!
# Declarations as a pattern

A declaration is written as one pattern: the boundary of a word, a type and blanks once or more, and
a name, which is group 1. Its repetition takes all types that it can and gives the last one back
where no name follows. `captures_declarationPattern` says that its matches, none of which overlaps
another, have the names that `declared` finds run by run.
-/

namespace LiveLint.CSource

open Pattern (Trail Way State Scans Match Explores findSome?_eq_of_all)
open LiveLint.Language

/-! ## The pattern -/

/-- A primitive type and the blanks behind it. -/
def typeTurn : Pattern :=
  .seq (wordChoice primitiveTypes) someBlanks

/-- The parts of the class that names start with. -/
def nameItems : List ClassItem :=
  [.range 'A' 'Z', .range 'a' 'z', .single '_']

/-- A name. -/
def declaredName : Pattern :=
  .seq (oneOf nameItems) (.star true (oneOf [.word]))

/-- A declaration. Group 1 is the name that it declares. -/
def declarationPattern : Pattern :=
  .seq (.seq .boundary (.plus true typeTurn)) (.group 1 declaredName)

theorem ofText_declarationPattern : Pattern.ofText
    "\\b(?:(?:int|float|double|char|long|short|unsigned)\\s+)+([A-Za-z_]\\w*)".toList =
      .ok declarationPattern := by
  rw [String.toList_ofList]
  decide +kernel

theorem nameItems_holds (c : Char) (r : List Char) :
    CharClass.holds ⟨false, nameItems⟩ c = startsIdentifier (c :: r) := by
  simp only [CharClass.holds, nameItems, List.any_cons, List.any_nil, ClassItem.holds,
    Bool.or_false, Bool.bne_false, startsIdentifier, Text.isAlpha_eq, Text.isUpper_eq,
    Text.isLower_eq, Bool.or_assoc, Bool.beq_comm (b := c)]

/-! ## Names -/

/-- Where the group that was closed last starts, and where the state is. -/
def lastGroup (s : State) : Option Nat × Nat :=
  (s.spans.head?.map Pattern.Span.start, s.position)

/-- Where a declared name starts and stops. -/
def Declared.bounds (d : Declared) : Option Nat × Nat :=
  (some d.position, d.position + d.name.length)

/-- The bounds of the name that a text begins with. -/
def nameBounds? (a : Pattern.Place) : Option (Option Nat × Nat) :=
  (nameAt? a.position (Text.runs a.rest)).map (·.1.bounds)

/-- The bounds of the name that is declared where a text begins. -/
def declaredBounds? (a : Pattern.Place) : Option (Option Nat × Nat) :=
  (declaration? a.position (Text.runs a.rest)).map (·.1.bounds)

theorem nameBounds?_of_other {a : Pattern.Place}
    (other : startsIdentifier a.rest = false) : nameBounds? a = none := by
  rw [nameBounds?]
  cases rest : a.rest with
  | nil => rfl
  | cons c r =>
    obtain ⟨xs, ys, text, some, -, -, runs⟩ := exists_first_run c r
    obtain ⟨d, xs, rfl⟩ := List.exists_cons_of_ne_nil some
    cases text
    rw [rest] at other
    have stops : startsIdentifier (c :: xs) = false := other
    rw [runs, nameAt?, stops]
    rfl

/-- The pattern of a name takes the name that the text begins with, whole. -/
theorem map_head?_declaredName (s : State) :
    ((Pattern.group 1 declaredName).ends 3 s).head?.map lastGroup = nameBounds? s.place := by
  have shape : (Pattern.group 1 declaredName).ends 3 s =
      (Pattern.distinct ((Pattern.oneEnds ⟨false, nameItems⟩ s).flatMap
        ((Pattern.star true (oneOf [.word])).ends 13))).map (·.closing 1 s.position) := rfl
  rw [shape, List.head?_map, Pattern.head?_distinct, Option.map_map]
  cases starts : startsIdentifier s.place.rest with
  | false =>
    have none : Pattern.oneEnds ⟨false, nameItems⟩ s = [] := by
      rw [Pattern.oneEnds]
      split
      · rfl
      · next c r rest => rw [nameItems_holds c r, ← rest, starts, if_neg Bool.false_ne_true]
    rw [none, nameBounds?_of_other starts]
    rfl
  | true =>
    obtain ⟨c, r, rest⟩ : ∃ c r, s.place.rest = c :: r := by
      refine List.exists_cons_of_ne_nil fun none => ?_
      rw [none] at starts
      cases starts
    rw [rest] at starts
    have holds : CharClass.holds ⟨false, nameItems⟩ c = true := (nameItems_holds c r).trans starts
    have letter : Text.isWord c = true := isWord?_of_startsIdentifier starts
    -- the name is the first run
    obtain ⟨xs, ys, text, some, same, other, runs⟩ := exists_first_run c r
    obtain ⟨d, xs, rfl⟩ := List.exists_cons_of_ne_nil some
    obtain ⟨rfl, rfl⟩ : c = d ∧ r = xs ++ ys := List.cons.inj text
    have starts' : startsIdentifier (c :: xs) = true := starts
    rw [letter] at same other
    have read : (s.take c (xs ++ ys)).place.rest = xs ++ ys := rfl
    obtain ⟨b, reads, left⟩ := Pattern.Place.exists_reads read
    simp only [← word_holds] at same other
    have fresh : 13 ∉ (s.take c (xs ++ ys)).decided := List.not_mem_nil
    obtain ⟨t, head, place⟩ := Pattern.exists_head?_star fresh
      (fun d hd => same d (List.mem_cons_of_mem c hd)) reads (left ▸ other)
    rw [Pattern.oneEnds_cons rest holds, List.flatMap_singleton, oneOf, head, nameBounds?, rest,
      runs, nameAt?, if_pos starts']
    have stops : t.position = s.position + (c :: xs).length := by
      rw [State.position, place, reads.position, List.length_cons]
      show s.position + 1 + xs.length = _
      omega
    show Option.some (Option.some s.position, t.position) =
      Option.some (Option.some s.position, s.position + (String.ofList (c :: xs)).length)
    rw [stops, String.length_ofList]

/-! ## Types -/

section Turns

variable {s t : State} {here : Nat}

theorem mem_typeTurn_iff : t ∈ typeTurn.ends here s ↔ t ∈ Pattern.distinct
    (((wordChoice primitiveTypes).ends (2 * here) s).flatMap (someBlanks.ends (2 * here + 1))) :=
  Iff.rfl

/-- A turn reads a type and the blanks behind it, or some of them. -/
theorem exists_of_mem_typeTurn (h : t ∈ typeTurn.ends here s) :
    ∃ type ∈ primitiveTypes, ∃ gap, gap ≠ [] ∧ Text.isAllBlank gap = true ∧
      s.place.Reads (type.toList ++ gap) t.place := by
  have way : Way typeTurn s.trail t.trail := Pattern.way_of_mem_ends h
  cases way with
  | seq head tail =>
    obtain ⟨type, primitive, reads⟩ := (way_wordChoice_iff (by decide)).mp head
    obtain ⟨gap, some, blank, further⟩ := way_someBlanks_iff.mp tail
    exact ⟨type, primitive, gap, some, blank, (reads.trans further).place⟩

theorem decided_of_mem_typeTurn (h : t ∈ typeTurn.ends here s) : t.decided = [2 * here + 1] := by
  obtain ⟨m, -, tail⟩ := List.mem_flatMap.mp (Pattern.mem_of_mem_distinct (mem_typeTurn_iff.mp h))
  exact Pattern.decided_of_mem_runEnds (List.mem_reverse.mp tail)

/-- Every turn is found, unless the choice of the type was decided before. -/
theorem exists_mem_typeTurn (pos : 0 < here) (fresh : s.Fresh (2 * here)) {type : String}
    (primitive : type ∈ primitiveTypes) {gap : List Char} (some : gap ≠ [])
    (blank : Text.isAllBlank gap = true) {b : Pattern.Place}
    (reads : s.place.Reads (type.toList ++ gap) b) : ∃ t ∈ typeTurn.ends here s, t.place = b := by
  obtain ⟨e, first, further⟩ := reads.exists_between
  have way : Way (wordChoice primitiveTypes) s.trail ⟨e, s.spans⟩ :=
    (way_wordChoice_iff (by decide)).mpr ⟨type, primitive, first, rfl⟩
  have simple : (wordChoice primitiveTypes).repeatsOnlyClasses = true := by decide +kernel
  have complete : Pattern.FindsWays (wordChoice primitiveTypes) (2 * here) :=
    Pattern.findsWays_of_repeatsOnlyClasses simple (by omega)
  obtain ⟨m, hm, rfl⟩ := complete way rfl fresh
  have all : ∀ c ∈ gap, CharClass.holds ⟨false, [.blank]⟩ c = true := by
    simp only [blank_holds]
    exact List.all_eq_true.mp blank
  obtain ⟨t, ht, rfl⟩ := Pattern.exists_mem_runEnds (2 * here + 1) some all further
  have reach : ∀ u ∈ ((wordChoice primitiveTypes).ends (2 * here) s).flatMap
      (someBlanks.ends (2 * here + 1)), ∃ w, s.place.Reads w u.place := by
    intro u hu
    obtain ⟨v, hv, hu⟩ := List.mem_flatMap.mp hu
    exact (Way.seq (Pattern.way_of_mem_ends hv) (Pattern.way_of_mem_ends hu)).reads
  exact Pattern.exists_mem_distinct reach
    (List.mem_flatMap.mpr ⟨m, hm, List.mem_reverse.mpr ht⟩)

end Turns

/-! ## What turns lead to -/

section Turns

variable {a b : Pattern.Place} {gap : List Char} {type : String}

/-- The bounds of a declared name, or else of the name that stands here. -/
def boundsBehind? (a : Pattern.Place) : Option (Option Nat × Nat) :=
  (declaredBounds? a).or (nameBounds? a)

theorem boundsBehind?_of_other (other : ∀ c ∈ a.rest.head?, Text.isWord c = false) :
    boundsBehind? a = none := by
  have unnamed := nameBounds?_of_other (startsIdentifier_of_other other)
  rw [boundsBehind?, unnamed, Option.or_none, declaredBounds?]
  cases rest : a.rest with
  | nil => rfl
  | cons c r =>
    obtain ⟨xs, ys, text, some, same, -, runs⟩ := exists_first_run c r
    rw [rest] at other
    rw [other c rfl] at same
    have untyped := not_mem_primitiveTypes some same
    rw [runs]
    cases Text.runs ys with
    | nil => rfl
    | cons between later => simp [declaration?, untyped]

/-- Where a type and blanks are the first runs, what is declared is found behind them. -/
theorem declaredBounds?_of_runs (runs : Text.runs a.rest = type.toList :: gap :: Text.runs b.rest)
    (primitive : type ∈ primitiveTypes) (blank : Text.isAllBlank gap = true)
    (reads : a.Reads (type.toList ++ gap) b) : declaredBounds? a = boundsBehind? b := by
  have typed : (String.ofList type.toList ∈ primitiveTypes && Text.isAllBlank gap) = true := by
    rw [String.ofList_toList, decide_eq_true primitive, blank]
    rfl
  have position : a.position + type.toList.length + gap.length = b.position := by
    rw [reads.position, List.length_append, Nat.add_assoc]
  rw [declaredBounds?, runs, declaration?, if_pos typed, position, Option.map_or, boundsBehind?,
    declaredBounds?, nameBounds?]

/-- Behind a type and blanks, either nothing is declared, or what is declared from the type on. -/
theorem boundsBehind?_of_turn (primitive : type ∈ primitiveTypes) (some : gap ≠ [])
    (blank : Text.isAllBlank gap = true) (reads : a.Reads (type.toList ++ gap) b) :
    boundsBehind? b = none ∨ boundsBehind? b = declaredBounds? a := by
  by_cases other : ∀ c ∈ b.rest.head?, Text.isWord c = false
  · exact .inl (boundsBehind?_of_other other)
  · right
    -- a word follows, so the type and the blanks are whole runs
    have letters : ∀ t ∈ primitiveTypes, t.toList ≠ [] ∧ ∀ c ∈ t.toList, Text.isWord c = true := by
      decide
    obtain ⟨there, word⟩ := letters type primitive
    have gaps : ∀ c ∈ gap, Text.isWord c = false := fun c hc =>
      Text.isWord_of_isBlank (List.all_eq_true.mp blank c hc)
    have next : ∀ c ∈ b.rest.head?, Text.isWord c = true := by
      simp only [not_forall, Bool.not_eq_false] at other
      obtain ⟨d, hd, letter⟩ := other
      intro c hc
      rwa [Option.mem_unique hc hd]
    have first : ∀ c ∈ (gap ++ b.rest).head?, Text.isWord c = false := by
      intro c hc
      rw [List.head?_append_of_ne_nil _ some] at hc
      exact gaps c (List.mem_of_mem_head? hc)
    refine (declaredBounds?_of_runs ?_ primitive blank reads).symm
    rw [reads.rest, List.append_assoc, Text.runs_append there word first,
      Text.runs_append some gaps next]

/-- What is declared is found behind some type and blanks. -/
theorem exists_turn_of_declaredBounds? (declared : declaredBounds? a ≠ none) :
    ∃ type ∈ primitiveTypes, ∃ gap, gap ≠ [] ∧ Text.isAllBlank gap = true ∧
      ∃ b, a.Reads (type.toList ++ gap) b ∧ boundsBehind? b = declaredBounds? a := by
  rw [declaredBounds?] at declared
  rcases runs : Text.runs a.rest with _ | ⟨type, _ | ⟨gap, rest⟩⟩
  · rw [runs] at declared
    exact absurd rfl declared
  · rw [runs] at declared
    exact absurd rfl declared
  · rw [runs, declaration?] at declared
    split at declared
    · next typed =>
      obtain ⟨primitive, blank⟩ := Bool.and_eq_true_iff.mp typed
      have there : gap ≠ [] := Text.ne_nil_of_mem_runs (by rw [runs]; simp)
      have two : Text.runs a.rest = [type, gap] ++ rest := runs
      obtain ⟨-, later, -⟩ := Text.runs_flatten_of_append two
      have text : a.rest = ((String.ofList type).toList ++ gap) ++ rest.flatten := by
        rw [← Text.flatten_runs a.rest, runs, String.toList_ofList]
        simp
      obtain ⟨b, reads, left⟩ := Pattern.Place.exists_reads text
      refine ⟨_, of_decide_eq_true primitive, gap, there, blank, b, reads, Eq.symm ?_⟩
      refine declaredBounds?_of_runs ?_ (of_decide_eq_true primitive) blank reads
      rw [left, later, String.toList_ofList, runs]
    · exact absurd rfl declared

/-- **What turns lead to** is what is declared. -/
theorem findSome?_typeTurn {s : State} {here : Nat} (pos : 0 < here) (fresh : s.Fresh (2 * here)) :
    (typeTurn.ends here s).findSome? (boundsBehind? ·.place) = declaredBounds? s.place := by
  refine findSome?_eq_of_all (fun t ht => ?_) (fun declared => ?_)
  · obtain ⟨type, primitive, gap, some, blank, reads⟩ := exists_of_mem_typeTurn ht
    exact boundsBehind?_of_turn primitive some blank reads
  · obtain ⟨type, primitive, gap, some, blank, b, reads, same⟩ :=
      exists_turn_of_declaredBounds? declared
    obtain ⟨t, ht, rfl⟩ := exists_mem_typeTurn pos fresh primitive some blank reads
    exact ⟨t, ht, same⟩

end Turns

/-! ## One declaration -/

section One

variable {cs u : List Char} {a : Pattern.Place} {m : Match}

/-- A state behind some turns, in the text. -/
structure BehindTurns (cs : List Char) (s : State) : Prop where
  reads : ∃ u, (Pattern.Place.start cs).Reads u s.place
  decided : s.decided = [21]

theorem BehindTurns.fresh {s : State} (h : BehindTurns cs s) : (s.having 5).Fresh 20 := by
  intro d made inside
  rcases List.mem_cons.mp made with rfl | made
  · have := inside.le
    omega
  · rw [h.decided] at made
    cases List.mem_singleton.mp made
    have inside : Pattern.Within (2 * 10) 21 := inside
    exact inside.not_right (by omega) (Pattern.within_self 21)

/-- The repetition of types tries what is declared behind, and then the name. -/
theorem explores_typeTurn (cs : List Char) :
    Explores (typeTurn.ends 10) 5 cs.length (BehindTurns cs) (nameBounds? ·.place)
      (boundsBehind? ·.place) where
  fresh h := by
    rw [h.decided]
    decide
  inside h := by
    obtain ⟨u, reads⟩ := h.reads
    exact reads.position_add_length
  turns h ht := by
    obtain ⟨u, reads⟩ := h.reads
    obtain ⟨type, -, gap, -, -, further⟩ := exists_of_mem_typeTurn ht
    exact ⟨⟨_, reads.trans further⟩, decided_of_mem_typeTurn ht⟩
  onward {s t} h ht := by
    obtain ⟨type, -, gap, some, -, further⟩ := exists_of_mem_typeTurn ht
    have there := List.length_pos_iff.mpr some
    have position : t.place.position = s.place.position + _ := further.position
    rw [State.position, State.position, position, List.length_append]
    omega
  same h h' position none := by
    obtain ⟨u, reads⟩ := h.reads
    obtain ⟨u', reads'⟩ := h'.reads
    rwa [← reads.eq_of_position reads' position]
  step h := by
    rw [findSome?_typeTurn (by omega) h.fresh]
    rfl

/-- The repetition of types leads to what is declared. -/
theorem findSome?_plusEnds_typeTurn (before : (Pattern.Place.start cs).Reads u a) :
    (Pattern.plusEnds (typeTurn.ends 10) true 5 (.start a)).findSome? (nameBounds? ·.place) =
      declaredBounds? a := by
  have fresh : (State.start a).Fresh 20 := fun d made => absurd made List.not_mem_nil
  rw [Pattern.findSome?_plusEnds (explores_typeTurn cs), findSome?_typeTurn (by omega) fresh]
  · rfl
  · intro t ht
    obtain ⟨type, -, gap, -, -, reads⟩ := exists_of_mem_typeTurn ht
    refine ⟨⟨⟨_, before.trans reads⟩, decided_of_mem_typeTurn ht⟩, ?_⟩
    rw [reads.rest, List.length_append]
    exact Nat.le_add_left _ _

/-- Where a word starts or ends, what is declared there is matched. -/
theorem map_matchAt?_declarationPattern (before : (Pattern.Place.start cs).Reads u a) :
    (declarationPattern.matchAt? a).map (lastGroup ·.final) =
      if Text.isBoundary a.before a.rest.head? then declaredBounds? a else none := by
  have shape : declarationPattern.ends 1 (.start a) = Pattern.distinct
      ((Pattern.distinct ((Pattern.boundary.ends 4 (.start a)).flatMap
        (Pattern.plusEnds (typeTurn.ends 10) true 5))).flatMap
          ((Pattern.group 1 declaredName).ends 3)) := rfl
  have last : (lastGroup ·.final) ∘ (fun final => (⟨a.position, final⟩ : Match)) = lastGroup := rfl
  have named : (Option.map lastGroup ∘ fun s => ((Pattern.group 1 declaredName).ends 3 s).head?) =
      fun s => nameBounds? s.place := funext map_head?_declaredName
  rw [Pattern.matchAt?, Option.map_map, last, shape, Pattern.head?_distinct, List.head?_flatMap,
    List.map_findSome?, named]
  cases bound : Text.isBoundary a.before a.rest.head? with
  | false =>
    have none : Pattern.boundary.ends 4 (.start a) = [] :=
      if_neg fun there => Bool.false_ne_true (bound.symm.trans there)
    rw [none]
    rfl
  | true =>
    have here : Pattern.boundary.ends 4 (.start a) = [.start a] := if_pos bound
    have goes : Pattern.GoesByPosition (fun s : State => nameBounds? s.place)
        (Pattern.plusEnds (typeTurn.ends 10) true 5 (.start a)) :=
      Pattern.goesByPosition_ends nameBounds? (.plus true typeTurn) 5 _
    rw [here, List.flatMap_singleton, Pattern.findSome?_distinct goes,
      findSome?_plusEnds_typeTurn before, if_pos rfl]

/-- The group of a match is the last that it closes, up to its end. -/
theorem span?_of_matchAt?_declarationPattern (here : declarationPattern.matchAt? a = some m) :
    ∃ start, m.span? 1 = some (start, m.final.position) ∧
      lastGroup m.final = (some start, m.final.position) := by
  have way := (Pattern.way_of_matchAt? here).2
  generalize final : m.final.trail = b at way
  cases way with
  | seq head tail =>
    obtain ⟨c, -, rfl⟩ := Pattern.way_group_iff.mp tail
    have spans : m.final.spans = _ :: c.spans := congrArg Trail.spans final
    have place : m.final.place = c.place := congrArg Trail.place final
    rw [Match.span?, if_neg Nat.one_ne_zero, lastGroup, spans, State.position, place]
    exact ⟨_, rfl, rfl⟩

/-! ## All declarations -/

/-- What is declared is a run, and the next declarations are looked for in the runs behind it. -/
theorem exists_runs_of_declaration? {pos : Nat} {rs after : List (List Char)} {d : Declared}
    (h : declaration? pos rs = some (d, after)) : ∃ front name, rs = front ++ name :: after ∧
      d = ⟨String.ofList name, pos + front.flatten.length⟩ := by
  fun_induction declaration? pos rs with
  | case1 pos type gap rest typed behind ih =>
    rcases Option.or_eq_some_iff.mp h with deeper | ⟨-, here⟩
    · obtain ⟨front, name, rfl, rfl⟩ := ih deeper
      refine ⟨type :: gap :: front, name, rfl, ?_⟩
      simp [behind, Nat.add_assoc]
    · obtain ⟨name, rfl, -, rfl⟩ := nameAt?_eq_some_iff.mp here
      refine ⟨[type, gap], name, rfl, ?_⟩
      simp [behind, Nat.add_assoc]
  | case2 => cases h
  | case3 => cases h

/-- A declaration begins with a word. -/
theorem isWord?_of_declaration? {pos : Nat} {d : Declared} {after : List (List Char)}
    (found : declaration? pos (Text.runs cs) = some (d, after)) : Text.isWord? cs.head? = true := by
  cases runs : Text.runs cs with
  | nil =>
    rw [runs] at found
    cases found
  | cons xs rest =>
    rw [runs] at found
    have type := mem_primitiveTypes_of_declaration? found
    have there : xs ∈ Text.runs cs := by simp [runs]
    rw [← Text.flatten_runs cs, runs, List.flatten_cons,
      List.head?_append_of_ne_nil _ (Text.ne_nil_of_mem_runs there)]
    exact isWord?_of_startsIdentifier (startsIdentifier_of_mem_primitiveTypes type)

/-- **One declaration is one match.** Behind it the next run begins. -/
theorem exists_match_of_declaration? (before : (Pattern.Place.start cs).Reads u a)
    (edge : AtEdge a) {d : Declared} {after : List (List Char)}
    (found : declaration? a.position (Text.runs a.rest) = some (d, after)) :
    ∃ m w, declarationPattern.matchAt? a = some m ∧
      m.capture cs 1 = some (d.position, d.name.toList) ∧ a.Reads w m.final.place ∧
      m.final.place.position = d.position + d.name.length ∧
      Text.runs m.final.place.rest = after ∧ AtEdge m.final.place := by
  obtain ⟨front, name, parts, rfl⟩ := exists_runs_of_declaration? found
  -- the name, and what stands before and behind it
  have rs : Text.runs a.rest = (front ++ [name]) ++ after := by rw [parts, List.append_cons]
  obtain ⟨-, later, apart⟩ := Text.runs_flatten_of_append rs
  have mem : name ∈ Text.runs a.rest := by simp [rs]
  have there : name ≠ [] := Text.ne_nil_of_mem_runs mem
  have text : a.rest = front.flatten ++ (name ++ after.flatten) := by
    rw [← Text.flatten_runs a.rest, rs]
    simp
  obtain ⟨e, reads, rest⟩ := Pattern.Place.exists_reads text
  obtain ⟨f, further, rest'⟩ := Pattern.Place.exists_reads rest
  have bound := edge.isBoundary (isWord?_of_declaration? found)
  have matched := map_matchAt?_declarationPattern before
  rw [if_pos bound, declaredBounds?, found] at matched
  obtain ⟨m, here, bounds⟩ := Option.map_eq_some_iff.mp matched
  obtain ⟨start, span, last⟩ := span?_of_matchAt?_declarationPattern here
  obtain ⟨starts, stops⟩ := Prod.mk.inj (bounds.symm.trans last)
  obtain rfl : a.position + front.flatten.length = start := Option.some.inj starts
  have position : m.final.place.position = a.position + front.flatten.length + name.length := by
    rw [← String.length_ofList (l := name)]
    exact stops.symm
  obtain ⟨w, reads'⟩ := (Pattern.way_of_matchAt? here).2.reads
  obtain rfl : m.final.place = f := by
    refine reads'.eq_of_position (reads.trans further) (position.trans ?_)
    rw [further.position, reads.position]
  refine ⟨m, w, here, ?_, reads', ?_, by rw [rest', later], ?_⟩
  · rw [← reads.position, String.toList_ofList]
    refine Match.capture_eq (before.trans reads) further ?_
    rw [span, reads.position]
    rfl
  · rw [String.length_ofList]
    exact position
  · rw [List.flatten_append, List.flatten_singleton, ← rest'] at apart
    exact atEdge_of_apart (List.append_ne_nil_of_right_ne_nil _ there) apart (reads.trans further)

end One

/-- A captured name as a declared one. -/
def Declared.ofCapture (capture : Nat × List Char) : Declared :=
  ⟨String.ofList capture.2, capture.1⟩

theorem declaredFrom_of_some {pos : Nat} {rs after : List (List Char)} {d : Declared}
    (found : declaration? pos rs = some (d, after)) :
    declaredFrom pos rs = d :: declaredFrom (d.position + d.name.length) after := by
  cases rs with
  | nil => cases found
  | cons run rest =>
    rw [declaredFrom]
    split
    · next found' =>
      cases found.symm.trans found'
      rfl
    · next none => cases none.symm.trans found

theorem declaredFrom_of_none {pos : Nat} {run : List Char} {rest : List (List Char)}
    (none : declaration? pos (run :: rest) = none) :
    declaredFrom pos (run :: rest) = declaredFrom (pos + run.length) rest := by
  rw [declaredFrom]
  split
  · next found => cases none.symm.trans found
  · rfl

/-- At an edge a match is a declaration. -/
theorem isSome_matchAt?_declarationPattern {cs u : List Char} {a : Pattern.Place}
    (before : (Pattern.Place.start cs).Reads u a) (edge : AtEdge a) :
    (declarationPattern.matchAt? a).isSome =
      (declaration? a.position (Text.runs a.rest)).isSome := by
  have matched := congrArg Option.isSome (map_matchAt?_declarationPattern before)
  rw [Option.isSome_map] at matched
  rw [matched]
  cases found : declaration? a.position (Text.runs a.rest) with
  | none =>
    rw [declaredBounds?, found, Option.map_none, ite_self]
    rfl
  | some declared =>
    obtain ⟨d, after⟩ := declared
    rw [if_pos (edge.isBoundary (isWord?_of_declaration? found)), declaredBounds?, found]
    rfl

/-- Inside a run no match starts. -/
theorem matchAt?_declarationPattern_inside {cs u v xs ys : List Char} {a d : Pattern.Place}
    {kind : Bool} (before : (Pattern.Place.start cs).Reads u a) (text : a.rest = xs ++ ys)
    (same : ∀ c ∈ xs, Text.isWord c = kind) (some : v ≠ []) (inside : v <+: xs) (proper : v ≠ xs)
    (reads : a.Reads v d) : declarationPattern.matchAt? d = none := by
  obtain ⟨w, left, rfl, rest⟩ := exists_left_of_prefix inside proper reads text
  have matched := map_matchAt?_declarationPattern (before.trans reads)
  rw [isBoundary_inside same some left reads rest] at matched
  exact Option.map_eq_none_iff.mp matched

/-- **What the pattern finds** are the declared names. -/
theorem captures_declarationPattern (cs : List Char) :
    (declarationPattern.captures 1 cs).map Declared.ofCapture = declared cs := by
  have scanned : ∃ ms, Scans declarationPattern (.start cs) ms ∧
      (ms.filterMap (Match.capture cs 1)).map Declared.ofCapture = declared cs := by
    refine Pattern.exists_scans (Q := AtEdge) (P := fun a ms =>
      (ms.filterMap (Match.capture cs 1)).map Declared.ofCapture =
        declaredFrom a.position (Text.runs a.rest)) rfl ?_ ?_ ?_ (atEdge_start cs)
    · intro a u _ last
      rw [last]
      simp [Text.runs, declaredFrom]
    · intro a u m before edge here
      have declares := isSome_matchAt?_declarationPattern before edge
      rw [here, Option.isSome_some, eq_comm] at declares
      obtain ⟨⟨d, after⟩, found⟩ := Option.isSome_iff_exists.mp declares
      obtain ⟨m', w, here', capture, reads, position, later, edge'⟩ :=
        exists_match_of_declaration? before edge found
      cases here.symm.trans here'
      refine ⟨edge', fun ms names => ?_⟩
      rw [List.filterMap_cons_some capture, List.map_cons, names, position, later,
        declaredFrom_of_some found, Declared.ofCapture, String.ofList_toList]
    · intro a u c r before edge text here
      obtain ⟨xs, ys, whole, some, same, other, runs⟩ := exists_first_run c r
      obtain ⟨b, reads, rest⟩ := Pattern.Place.exists_reads (text.trans whole)
      refine ⟨xs, b, some, reads, atEdge_of_reads some same (rest ▸ other) reads,
        fun v d inside proper reads' => ?_, fun ms _ names => ?_⟩
      · by_cases first : v = []
        · subst first
          rwa [reads'.eq_of_nil]
        · exact matchAt?_declarationPattern_inside before (text.trans whole) same first inside
            proper reads'
      · have none := isSome_matchAt?_declarationPattern before edge
        rw [here, Option.isSome_none, eq_comm, Option.isSome_eq_false_iff,
          Option.isNone_iff_eq_none, text, runs] at none
        rw [names, text, runs, declaredFrom_of_none none, reads.position, rest]
  obtain ⟨ms, scans, found⟩ := scanned
  rw [Pattern.captures_eq_of_scans rfl scans, found]

/-! ## Unused variables -/

/-- What the two patterns find, with all words counted: variables that are declared and are no
other word of the text. -/
def unusedByPatterns (cs : List Char) : List Declared :=
  let words := (someWord.captures 0 cs).map (·.2)
  ((declarationPattern.captures 1 cs).map Declared.ofCapture).filter fun d =>
    d.isVariable && words.count d.name.toList ≤ 1

/-- **The unused variables are those that the patterns find.** -/
theorem unusedVariables_eq_unusedByPatterns (cs : List Char) :
    unusedVariables cs = unusedByPatterns cs := by
  rw [unusedVariables, unusedByPatterns, captures_declarationPattern, declared]
  refine List.filter_congr fun d hd => ?_
  cases kind : d.isVariable with
  | false => rfl
  | true =>
    -- a variable is a name, so a word
    have follows : d ∈ followersFrom 0 (Text.runs cs) := by
      have both := List.mem_filter.mpr ⟨hd, kind⟩
      rw [filter_declaredFrom] at both
      exact (List.mem_filter.mp both).1
    have word : isWordRun d.name.toList = true :=
      isWord?_of_startsIdentifier (startsIdentifier_of_mem_followersFrom follows)
    rw [count_captures_someWord word, occurrences]

end LiveLint.CSource
