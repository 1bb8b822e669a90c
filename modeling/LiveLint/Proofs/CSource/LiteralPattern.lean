import LiveLint.Proofs.CSource.JumpPattern
import LiveLint.Proofs.Pattern.Turns

/-!
# Literals as a pattern

A literal is written as one pattern: a quote, then escapes and plain characters any number of times,
and the quote again, for either quote. There is one way through it, which `afterLiteral` takes. So
replacing its matches blanks the literals of a line (`replaceAll_literalPattern`), and what runs on
in the code of a line is found by patterns alone (`hasRunOnStatement_eq_byPatterns`).
-/

namespace LiveLint.CSource

open Pattern (Trail Way State Scans Match Explores findSome?_eq_of_all charClass)
open LiveLint.Language

/-! ## The pattern -/

/-- One character between quotes, or two: an escape, or what is no quote and no backslash. -/
def literalTurn (q : Char) : Pattern :=
  .alt escaped (oneBut [q, '\\'])

/-- A literal between quotes. -/
def quotedLiteral (q : Char) : Pattern :=
  .seq (.seq (.one (charClass q)) (.star true (literalTurn q))) (.one (charClass q))

/-- A literal. -/
def literalPattern : Pattern :=
  .alt (quotedLiteral '"') (quotedLiteral '\'')

theorem ofText_literalPattern :
    Pattern.ofText "\"(?:\\\\.|[^\"\\\\])*\"|'(?:\\\\.|[^'\\\\])*'".toList =
      .ok literalPattern := by
  rw [String.toList_ofList]
  decide +kernel

/-! ## Turns -/

/-- The text after one turn between quotes. -/
def afterTurn (q : Char) : List Char → Option (List Char)
  | '\\' :: c :: r => if c = '\n' then none else some r
  | c :: r => if c = q ∨ c = '\\' then none else some r
  | [] => none

/-- The text after the closing quote. -/
def afterQuote (q : Char) : List Char → Option (List Char)
  | c :: r => if c = q then some r else none
  | [] => none

section Turn

variable {q : Char} {s t : State} {here : Nat} {cs r : List Char}

/-- What is no backslash is read by itself. -/
theorem afterTurn_cons {c : Char} (plain : c ≠ '\\') :
    afterTurn q (c :: r) = if c = q then none else some r := by
  rw [afterTurn]
  · simp only [plain, or_false]
  · rintro _ _ rfl
    exact absurd rfl plain

/-- A literal goes on with a turn, or else it is closed. -/
theorem afterLiteral_eq (other : q ≠ '\\') (cs : List Char) :
    afterLiteral q cs = ((afterTurn q cs).bind (afterLiteral q)).or (afterQuote q cs) := by
  rcases cs with _ | ⟨c, r⟩
  · rfl
  · by_cases escape : c = '\\'
    · subst escape
      rcases r with _ | ⟨d, r⟩ <;>
        simp only [afterLiteral, afterTurn, afterQuote, other.symm, if_false, if_true, or_true]
      · rfl
      · split <;> simp
    · rw [afterTurn_cons escape, afterQuote, afterLiteral]
      · split <;> simp [*]
      · rintro _ _ rfl
        exact absurd rfl escape

/-- What one turn reads. -/
def IsTurn (q : Char) (w : List Char) : Prop :=
  (∃ c, w = ['\\', c] ∧ c ≠ '\n') ∨ ∃ c, w = [c] ∧ c ≠ q ∧ c ≠ '\\'

theorem afterTurn_iff : afterTurn q cs = some r ↔ ∃ w, cs = w ++ r ∧ IsTurn q w := by
  constructor
  · intro h
    rcases cs with _ | ⟨c, cs⟩
    · cases h
    · by_cases escape : c = '\\'
      · subst escape
        rcases cs with _ | ⟨d, cs⟩
        · simp [afterTurn] at h
        · rw [afterTurn] at h
          split at h
          · cases h
          · next inside =>
            cases h
            exact ⟨['\\', d], rfl, .inl ⟨d, rfl, inside⟩⟩
      · rw [afterTurn_cons escape] at h
        split at h
        · cases h
        · next plain =>
          cases h
          exact ⟨[c], rfl, .inr ⟨c, rfl, plain, escape⟩⟩
  · rintro ⟨_, rfl, ⟨c, rfl, inside⟩ | ⟨c, rfl, plain, escape⟩⟩
    · show afterTurn q ('\\' :: c :: r) = some r
      rw [afterTurn, if_neg inside]
    · show afterTurn q (c :: r) = some r
      rw [afterTurn_cons escape, if_neg plain]

theorem way_literalTurn_iff {a b : Trail} :
    Way (literalTurn q) a b ↔ ∃ w, IsTurn q w ∧ a.Reads w b := by
  have one : ∀ {a b : Trail} {cs : List Char},
      Way (oneBut cs) a b ↔ ∃ c, c ∉ cs ∧ a.Reads [c] b := by
    intro a b cs
    rw [oneBut, Pattern.way_one_iff]
    simp only [oneBut_holds_iff]
  constructor
  · intro way
    cases way with
    | altLeft way =>
      cases way with
      | seq head tail =>
        have first := way_charClass_iff.mp head
        obtain ⟨c, inside, reads⟩ := one.mp tail
        exact ⟨_, .inl ⟨c, rfl, by simpa using inside⟩, first.trans reads⟩
    | altRight way =>
      obtain ⟨c, other, reads⟩ := one.mp way
      obtain ⟨plain, escape⟩ : c ≠ q ∧ c ≠ '\\' := by simpa using other
      exact ⟨_, .inr ⟨c, rfl, plain, escape⟩, reads⟩
  · rintro ⟨_, ⟨c, rfl, inside⟩ | ⟨c, rfl, plain, escape⟩, reads⟩
    · obtain ⟨m, first, second⟩ := Trail.Reads.exists_between (w := ['\\']) reads
      exact .altLeft (.seq (way_charClass_iff.mpr first)
        (one.mpr ⟨c, by simpa using inside, second⟩))
    · exact .altRight (one.mpr ⟨c, by simp [plain, escape], reads⟩)

theorem decided_of_mem_literalTurn (h : t ∈ (literalTurn q).ends here s) : t.decided = [] := by
  have one : ∀ {k : CharClass} {s t : State}, t ∈ Pattern.oneEnds k s → t.decided = [] := by
    intro k s t h
    rw [Pattern.oneEnds] at h
    split at h
    · cases h
    · split at h
      · cases List.mem_singleton.mp h
        rfl
      · cases h
  obtain ⟨u, -, -, h⟩ := Pattern.mem_deciding h
  rcases List.mem_append.mp (Pattern.mem_of_mem_distinct h) with escape | plain
  · obtain ⟨m, -, last⟩ := List.mem_flatMap.mp (Pattern.mem_of_mem_distinct escape)
    exact one last
  · exact one plain

/-- A turn leads to what is left after it. -/
theorem findSome?_literalTurn (pos : 0 < here) (fresh : s.Fresh here) {β : Type}
    (f : List Char → Option β) :
    ((literalTurn q).ends here s).findSome? (f ·.place.rest) =
      (afterTurn q s.place.rest).bind f := by
  have simple : (literalTurn q).repeatsOnlyClasses = true := rfl
  refine findSome?_eq_of_all (fun t ht => ?_) (fun there => ?_)
  · obtain ⟨w, turn, reads⟩ := way_literalTurn_iff.mp (Pattern.way_of_mem_ends ht)
    have left : afterTurn q s.place.rest = some t.place.rest :=
      afterTurn_iff.mpr ⟨w, reads.place.rest, turn⟩
    exact .inr (by rw [left, Option.bind_some])
  · cases after : afterTurn q s.place.rest with
    | none =>
      rw [after] at there
      exact absurd rfl there
    | some r =>
      obtain ⟨w, text, turn⟩ := afterTurn_iff.mp after
      obtain ⟨b, reads, rest⟩ := Trail.exists_reads (a := s.trail) text
      have complete : Pattern.FindsWays (literalTurn q) here :=
        Pattern.findsWays_of_repeatsOnlyClasses simple pos
      obtain ⟨t, ht, place⟩ := complete (way_literalTurn_iff.mpr ⟨w, turn, reads⟩) rfl fresh
      refine ⟨t, ht, ?_⟩
      rw [place, rest]
      rfl

end Turn

/-! ## One literal -/

section One

variable {q : Char} {cs u : List Char} {a : Pattern.Place} {m : Match} {s : State} {here : Nat}

/-- A state behind a quote and some turns, in the text. -/
structure BetweenQuotes (cs : List Char) (here : Nat) (s : State) : Prop where
  reads : ∃ u, (Pattern.Place.start cs).Reads u s.place
  fresh : s.Fresh here

/-- The repetition tries what comes after the literal, and then the closing quote. -/
theorem explores_literalTurn (other : q ≠ '\\') (pos : 0 < here) (cs : List Char) :
    Explores ((literalTurn q).ends (2 * here)) here cs.length (BetweenQuotes cs here)
      (afterQuote q ·.place.rest) (afterLiteral q ·.place.rest) where
  fresh h := h.fresh.not_mem
  inside h := by
    obtain ⟨u, reads⟩ := h.reads
    exact reads.position_add_length
  turns {s t} h ht := by
    obtain ⟨u, reads⟩ := h.reads
    obtain ⟨w, -, further⟩ := way_literalTurn_iff.mp (Pattern.way_of_mem_ends ht)
    refine ⟨⟨_, reads.trans further.place⟩, fun d made => ?_⟩
    rw [decided_of_mem_literalTurn ht] at made
    cases made
  onward {s t} h ht := by
    obtain ⟨w, turn, further⟩ := way_literalTurn_iff.mp (Pattern.way_of_mem_ends ht)
    have position : t.place.position = s.place.position + w.length := further.place.position
    rw [State.position, State.position, position]
    rcases turn with ⟨c, rfl, -⟩ | ⟨c, rfl, -⟩ <;> simp
  same h h' position none := by
    obtain ⟨u, reads⟩ := h.reads
    obtain ⟨u', reads'⟩ := h'.reads
    rwa [← reads.eq_of_position reads' position]
  step {s} h := by
    have fresh : (s.having here).Fresh (2 * here) := h.fresh.left_of_decided pos rfl
    rw [findSome?_literalTurn (by omega) fresh]
    exact afterLiteral_eq other s.place.rest

theorem oneEnds_charClass {r : List Char} (rest : s.place.rest = q :: r) :
    Pattern.oneEnds (charClass q) s = [s.take q r] :=
  Pattern.oneEnds_cons rest (charClass_holds_iff.mpr rfl)

theorem oneEnds_charClass_of_other (h : s.place.rest.head? ≠ some q) :
    Pattern.oneEnds (charClass q) s = [] := by
  rw [Pattern.oneEnds]
  split
  · rfl
  · next c r rest =>
    rw [rest] at h
    exact if_neg fun holds => h (congrArg some (charClass_holds_iff.mp holds))

theorem afterQuote_of_other {text : List Char} (h : text.head? ≠ some q) :
    afterQuote q text = none := by
  cases text with
  | nil => rfl
  | cons c r => exact if_neg fun same => h (congrArg some same)

theorem map_head?_closingQuote (q : Char) (s : State) :
    (Pattern.oneEnds (charClass q) s).head?.map (·.place.rest) = afterQuote q s.place.rest := by
  by_cases quote : s.place.rest.head? = some q
  · obtain ⟨r, rest⟩ := List.head?_eq_some_iff.mp quote
    rw [oneEnds_charClass rest, rest, afterQuote, if_pos rfl]
    rfl
  · rw [oneEnds_charClass_of_other quote, afterQuote_of_other quote]
    rfl

/-- Behind a quote, the preferred way leads to the end of the literal. -/
theorem map_head?_quotedLiteral (other : q ≠ '\\')
    (before : (Pattern.Place.start cs).Reads u s.place) :
    ((quotedLiteral q).ends here s).head?.map (·.place.rest) =
      (afterQuote q s.place.rest).bind (afterLiteral q) := by
  let inner : State → List State :=
    Pattern.starEnds ((literalTurn q).ends (2 * (2 * (2 * here) + 1))) true (2 * (2 * here) + 1)
  have shape : (quotedLiteral q).ends here s = Pattern.distinct
      ((Pattern.distinct ((Pattern.oneEnds (charClass q) s).flatMap inner)).flatMap
        (Pattern.oneEnds (charClass q))) := rfl
  have closes : (Option.map (·.place.rest) ∘ fun t => (Pattern.oneEnds (charClass q) t).head?) =
      fun t => afterQuote q t.place.rest := funext (map_head?_closingQuote q)
  rw [shape, Pattern.head?_distinct, List.head?_flatMap, List.map_findSome?, closes]
  by_cases quote : s.place.rest.head? = some q
  · obtain ⟨r, rest⟩ := List.head?_eq_some_iff.mp quote
    have opened : BetweenQuotes cs (2 * (2 * here) + 1) (s.take q r) :=
      ⟨⟨_, before.trans (Pattern.Place.reads_cons rest)⟩,
        fun d made => absurd made List.not_mem_nil⟩
    have goes : Pattern.GoesByPosition (fun t : State => afterQuote q t.place.rest)
        (inner (s.take q r)) :=
      Pattern.goesByPosition_ends (fun a => afterQuote q a.rest) (.star true (literalTurn q))
        (2 * (2 * here) + 1) (s.take q r)
    rw [oneEnds_charClass rest, List.flatMap_singleton, Pattern.findSome?_distinct goes,
      Pattern.findSome?_starEnds (explores_literalTurn other (by omega) cs) opened, rest,
      afterQuote, if_pos rfl]
    rfl
  · rw [oneEnds_charClass_of_other quote, afterQuote_of_other quote]
    rfl

/-- The text after the literal that a text begins with. -/
def literalAfter? : List Char → Option (List Char)
  | c :: r => if c = '"' ∨ c = '\'' then afterLiteral c r else none
  | [] => none

/-- **A match is a literal**, up to its closing quote. -/
theorem map_matchAt?_literalPattern (before : (Pattern.Place.start cs).Reads u a) :
    (literalPattern.matchAt? a).map (·.final.place.rest) = literalAfter? a.rest := by
  let decided : State := ⟨a, [], [1]⟩
  have shape : literalPattern.ends 1 (.start a) = Pattern.distinct
      ((quotedLiteral '"').ends 2 decided ++ (quotedLiteral '\'').ends 3 decided) :=
    State.deciding_of_not_mem List.not_mem_nil
  have rest : (·.final.place.rest) ∘ (fun final => (⟨a.position, final⟩ : Match)) =
      fun s : State => s.place.rest := rfl
  rw [Pattern.matchAt?, Option.map_map, rest, shape, Pattern.head?_distinct, List.head?_append,
    Option.map_or, map_head?_quotedLiteral (by decide) (by exact before),
    map_head?_quotedLiteral (by decide) (by exact before)]
  show ((afterQuote '"' a.rest).bind _).or ((afterQuote '\'' a.rest).bind _) = _
  cases a.rest with
  | nil => rfl
  | cons c r =>
    rw [afterQuote, afterQuote, literalAfter?]
    by_cases double : c = '"'
    · subst double
      simp
    · by_cases single : c = '\''
      · subst single
        simp
      · simp [double, single]

end One

/-! ## Blanking -/

/-- The text from a position on, with the matches in it replaced. -/
def replacing (cs insert : List Char) : Nat → List Match → List Char
  | position, [] => cs.drop position
  | position, m :: ms =>
    Pattern.slice cs position m.start ++ (insert ++ replacing cs insert m.stop ms)

/-- The text with all matches of a pattern replaced. -/
def replaceAll (p : Pattern) (insert cs : List Char) : List Char :=
  replacing cs insert 0 (p.allMatches cs)

/-- A character in front of all matches stays. -/
theorem replacing_of_skip {p : Pattern} {cs u insert r : List Char} {c : Char} {a : Pattern.Place}
    {ms : List Match} (before : (Pattern.Place.start cs).Reads u a) (text : a.rest = c :: r)
    (later : Scans p ⟨a.position + 1, some c, r⟩ ms) :
    replacing cs insert a.position ms = c :: replacing cs insert (a.position + 1) ms := by
  have behind : cs.drop a.position = c :: cs.drop (a.position + 1) := by
    have whole : cs = u ++ c :: r := text ▸ before.rest
    have position : a.position = u.length := before.position.trans (Nat.zero_add _)
    rw [position, whole, List.drop_left, List.append_cons, ← List.length_concat (a := c),
      List.concat_eq_append, List.drop_left]
  cases ms with
  | nil => exact behind
  | cons m ms =>
    have start : a.position + 1 ≤ m.start := later.le_start
    obtain ⟨k, hk⟩ : ∃ k, m.start = a.position + 1 + k := Nat.exists_eq_add_of_le start
    have first : m.start - a.position = k + 1 := by omega
    have rest : m.start - (a.position + 1) = k := by omega
    rw [replacing, replacing, Pattern.slice, Pattern.slice, first, rest, behind,
      List.take_succ_cons, List.cons_append]

/-- Where a literal begins, it is blanked; else one character stays. -/
theorem blankLiterals_eq (cs : List Char) : blankLiterals cs = match literalAfter? cs with
    | some rest => '"' :: '"' :: blankLiterals rest
    | none => cs.head?.toList ++ blankLiterals cs.tail := by
  cases cs with
  | nil => simp [literalAfter?, blankLiterals]
  | cons c r =>
    rw [blankLiterals, literalAfter?]
    split
    · split <;> simp [*]
    · rfl

/-- **Replacing the matches** blanks the literals. -/
theorem replaceAll_literalPattern (cs : List Char) :
    replaceAll literalPattern ['"', '"'] cs = blankLiterals cs := by
  have scanned : ∃ ms, Scans literalPattern (.start cs) ms ∧
      replacing cs ['"', '"'] 0 ms = blankLiterals cs := by
    refine Pattern.exists_scans (Q := fun _ => True) (P := fun a ms =>
      replacing cs ['"', '"'] a.position ms = blankLiterals a.rest) rfl ?_ ?_ ?_ trivial
    · intro a u before last
      have whole : cs = u ++ [] := last ▸ before.rest
      have position : a.position = 0 + u.length := before.position
      rw [last, replacing, position, whole, blankLiterals]
      simp
    · intro a u m before _ here
      have start := (Pattern.way_of_matchAt? here).1
      have none : Pattern.slice cs a.position m.start = [] := by
        rw [start, Pattern.slice, Nat.sub_self, List.take_zero]
      have stops : m.stop = m.final.place.position := rfl
      refine ⟨trivial, fun ms replaced => ?_⟩
      rw [blankLiterals_eq, ← map_matchAt?_literalPattern before, here, replacing, none, stops,
        replaced]
      rfl
    · intro a u c r before _ text here
      refine ⟨[c], _, List.cons_ne_nil c [], Pattern.Place.reads_cons text, trivial,
        fun v d inside proper reads => ?_, fun ms scans replaced => ?_⟩
      · obtain rfl : v = [] := by
          rcases List.prefix_cons_iff.mp inside with none | ⟨v, rfl, none⟩
          · exact none
          · rw [List.prefix_nil.mp none] at proper
            exact absurd rfl proper
        rwa [reads.eq_of_nil]
      · rw [blankLiterals_eq, ← map_matchAt?_literalPattern before, here, text,
          replacing_of_skip before text scans, replaced]
        rfl
  obtain ⟨ms, scans, replaced⟩ := scanned
  rw [replaceAll, Pattern.allMatches_eq_of_scans rfl scans, replaced]

/-! ## What runs on -/

/-- The code of a line, with its literals blanked by their pattern. -/
def codeByPattern (line : List Char) : List Char :=
  Text.before ['/', '/'] (replaceAll literalPattern ['"', '"'] line)

/-- The words that the pattern of jumps finds before them in the code of a line. -/
def jumpedFromByPatterns (line : List Char) : List String :=
  (jumpPattern.captures 1 (codeByPattern line)).map (String.ofList ·.2)

/-- **A line runs on** just if the pattern of jumps finds a word in its code that leads into none.
Both patterns are those that are written. -/
theorem hasRunOnStatement_eq_byPatterns :
    Pattern.ofText "\"(?:\\\\.|[^\"\\\\])*\"|'(?:\\\\.|[^'\\\\])*'".toList = .ok literalPattern ∧
      Pattern.ofText "(\\w+)\\s+(?:return|break|continue|goto)\\b".toList = .ok jumpPattern ∧
      ∀ line, hasRunOnStatement line = (jumpedFromByPatterns line).any (· ∉ leadWords) := by
  refine ⟨ofText_literalPattern, ofText_jumpPattern, fun line => ?_⟩
  rw [hasRunOnStatement, jumpedFromByPatterns, captures_jumpPattern, codeByPattern,
    replaceAll_literalPattern, codeOf]

end LiveLint.CSource
