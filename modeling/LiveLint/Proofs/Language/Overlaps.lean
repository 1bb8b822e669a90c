import LiveLint.Proofs.Bytes
import LiveLint.Proofs.Language.Sweep
import LiveLint.Proofs.Lists
import LiveLint.Proofs.Pattern.Apart
import Mathlib.Data.List.Sort

/-!
# Which of overlapping places become tokens

Places that rules find in a line may overlap. `Resolves` says what is kept of them without sweeping:
what is kept lies apart, and whatever is not kept starts inside something that is kept and that
starts earlier or, at the same start, is by an earlier rule. No more than one choice does that
(`Resolves.unique`), and the sweep makes it (`resolves_sweep`), from any places of which no two are
by one rule and have one start. What rules find in a line is taken to be such (`LineSpans`), and
what patterns find is such: the matches of a rule lie apart, and its groups lie inside its matches
(`pairwise_spans`).

An editor counts columns in characters. Counting bytes instead, and turning to characters only what
is kept, gives the same tokens (`tokensOf_eq_inBytes`), since the bytes before a character grow
with the characters.
-/

namespace LiveLint

namespace Language

/-! ## What is kept -/

namespace Found

/-- The place ends behind its start and not behind `last`. -/
structure LiesWithin (f : Found) (last : Nat) : Prop where
  le : f.start ≤ f.stop
  stop_le : f.stop ≤ last

theorem LiesWithin.start_le {f : Found} {last : Nat} (h : f.LiesWithin last) : f.start ≤ last :=
  Nat.le_trans h.le h.stop_le

/-- The same place with its ends counted in another way. -/
def counted (φ : Nat → Nat) (f : Found) : Found :=
  { f with start := φ f.start, stop := φ f.stop }

/-- A place starts inside another one that starts earlier, or is by an earlier rule. -/
structure StartsInside (f g : Found) : Prop where
  le_start : g.start ≤ f.start
  start_lt : f.start < g.stop
  earlier : g.start < f.start ∨ g.start = f.start ∧ g.rule < f.rule

/-- No rule finds two places with one start, those apart that take nothing. -/
def OneByStart (fs : List Found) : Prop :=
  ∀ f ∈ fs, ∀ g ∈ fs, f.start < f.stop → g.start < g.stop → f.start = g.start → f.rule = g.rule →
    f = g

end Found

/-- What is kept of some places, if of two that overlap the one that starts first is to win, and at
one start the one by the earlier rule. -/
structure Resolves (fs kept : List Found) : Prop where
  taken : ∀ f ∈ kept, f ∈ fs ∧ f.start < f.stop
  apart : kept.Pairwise (·.stop ≤ ·.start)
  beaten : ∀ f ∈ fs, f.start < f.stop → f ∉ kept → ∃ g ∈ kept, f.StartsInside g

namespace Resolves

variable {fs kept : List Found}

/-- Of what is kept nothing starts inside anything else. -/
theorem not_startsInside (h : Resolves fs kept) {f g : Found} (hf : f ∈ kept) (hg : g ∈ kept) :
    ¬f.StartsInside g := by
  rintro ⟨le_start, start_lt, earlier⟩
  have takes := (h.taken f hf).2
  rcases eq_or_rel_of_pairwise h.apart hf hg with rfl | before | behind
  · omega
  · omega
  · omega

/-- What one choice keeps, any other keeps too. -/
theorem mem_of_mem {kept other : List Found} (h : Resolves fs kept) (h' : Resolves fs other)
    {f : Found} (hf : f ∈ kept) : f ∈ other := by
  by_contra dropped
  obtain ⟨there, takes⟩ := h.taken f hf
  obtain ⟨g, hg, inside⟩ := h'.beaten f there takes dropped
  -- what beats `f` in the other choice comes earlier, so both choices keep it
  exact h.not_startsInside hf (h'.mem_of_mem h hg) inside
termination_by (f.start, f.rule)
decreasing_by
  rcases inside.earlier with before | ⟨same, before⟩
  · exact Prod.Lex.left _ _ before
  · rw [same]
    exact Prod.Lex.right _ before

/-- **There is one choice at most.** -/
theorem unique {other : List Found} (h : Resolves fs kept) (h' : Resolves fs other) :
    kept = other := by
  have ordered : ∀ {kept : List Found}, Resolves fs kept → kept.Pairwise (·.start < ·.start) := by
    intro kept h
    refine h.apart.imp_of_mem fun {f g} hf _ before => ?_
    have takes := (h.taken f hf).2
    omega
  have irreflexive : Std.Irrefl fun f g : Found => f.start < g.start :=
    ⟨fun _ => Nat.lt_irrefl _⟩
  exact (ordered h).eq_of_mem_iff (ordered h') fun f => ⟨h.mem_of_mem h', h'.mem_of_mem h⟩

end Resolves

namespace Highlighter

/-! ## What the sweep does with any places -/

section Sweep

variable {fs : List Found} {f : Found} {covered : Nat}

/-- What is kept takes something, where it is not covered yet. -/
theorem of_mem_sweep (h : f ∈ sweep covered fs) : covered ≤ f.start ∧ f.start < f.stop := by
  induction fs generalizing covered with
  | nil => cases h
  | cons g fs ih =>
    by_cases kept : g.start < g.stop ∧ covered ≤ g.start
    · rw [sweep_cons_of_kept kept.1 kept.2] at h
      rcases List.mem_cons.mp h with rfl | h
      · exact ⟨kept.2, kept.1⟩
      · have := ih h
        omega
    · rw [sweep_cons_of_dropped (by omega)] at h
      exact ih h

/-- What is kept lies apart. -/
theorem pairwise_sweep (covered : Nat) (fs : List Found) :
    (sweep covered fs).Pairwise (·.stop ≤ ·.start) := by
  induction fs generalizing covered with
  | nil => exact .nil
  | cons f fs ih =>
    by_cases kept : f.start < f.stop ∧ covered ≤ f.start
    · rw [sweep_cons_of_kept kept.1 kept.2]
      exact .cons (fun g hg => (of_mem_sweep hg).1) (ih f.stop)
    · rw [sweep_cons_of_dropped (by omega)]
      exact ih covered

/-- What is not kept starts inside something that was looked at before it and kept. -/
theorem exists_of_not_mem_sweep (sorted : fs.Pairwise fun f g => f.notAfter g = true)
    (there : f ∈ fs) (takes : f.start < f.stop) (free : covered ≤ f.start)
    (dropped : f ∉ sweep covered fs) :
    ∃ g ∈ sweep covered fs, g.notAfter f = true ∧ f.start < g.stop := by
  induction fs generalizing covered with
  | nil => cases there
  | cons g fs ih =>
    obtain ⟨first, sorted⟩ := List.pairwise_cons.mp sorted
    by_cases kept : g.start < g.stop ∧ covered ≤ g.start
    · rw [sweep_cons_of_kept kept.1 kept.2] at dropped ⊢
      rw [List.mem_cons, not_or] at dropped
      have there := (List.mem_cons.mp there).resolve_left dropped.1
      by_cases inside : f.start < g.stop
      · exact ⟨g, List.mem_cons_self, first f there, inside⟩
      · obtain ⟨k, hk, found⟩ := ih sorted there (Nat.le_of_not_lt inside) dropped.2
        exact ⟨k, List.mem_cons_of_mem g hk, found⟩
    · rw [sweep_cons_of_dropped (by omega)] at dropped ⊢
      rcases List.mem_cons.mp there with rfl | there
      · exact absurd ⟨takes, free⟩ kept
      · exact ih sorted there free dropped

/-- **The sweep resolves overlaps**, whatever the places are found by. -/
theorem resolves_sweep (one : Found.OneByStart fs) :
    Resolves fs (sweep 0 (fs.mergeSort Found.notAfter)) := by
  have taken : ∀ f ∈ sweep 0 (fs.mergeSort Found.notAfter), f ∈ fs ∧ f.start < f.stop :=
    fun f hf => ⟨List.mem_mergeSort.mp ((sweep_sublist _ _).subset hf), (of_mem_sweep hf).2⟩
  refine ⟨taken, pairwise_sweep _ _, fun f hf takes dropped => ?_⟩
  obtain ⟨g, hg, before, inside⟩ := exists_of_not_mem_sweep (Found.pairwise_mergeSort fs)
    (List.mem_mergeSort.mpr hf) takes (Nat.zero_le _) dropped
  refine ⟨g, hg, ?_⟩
  rw [Found.notAfter_iff] at before
  rcases before with before | ⟨same, before | ⟨rule, -⟩⟩
  · exact ⟨Nat.le_of_lt before, inside, .inl before⟩
  · exact ⟨Nat.le_of_eq same, inside, .inr ⟨same, before⟩⟩
  · obtain ⟨there, takes'⟩ := taken g hg
    rw [one g there f hf takes' takes same rule] at hg
    exact absurd hg dropped

/-- Places that are counted in another way that keeps their order are kept alike. -/
theorem sweep_map {φ : Nat → Nat} {last : Nat}
    (grows : ∀ m ≤ last, ∀ n ≤ last, φ m < φ n ↔ m < n) (inside : ∀ f ∈ fs, f.LiesWithin last)
    (bound : covered ≤ last) :
    sweep (φ covered) (fs.map (·.counted φ)) = (sweep covered fs).map (·.counted φ) := by
  induction fs generalizing covered with
  | nil => rfl
  | cons f fs ih =>
    obtain ⟨here, inside⟩ := List.forall_mem_cons.mp inside
    have start := here.start_le
    have takes : (f.counted φ).start < (f.counted φ).stop ↔ f.start < f.stop :=
      grows _ start _ here.stop_le
    have behind : (f.counted φ).start < φ covered ↔ f.start < covered :=
      grows _ start _ bound
    rw [List.map_cons]
    by_cases kept : f.start < f.stop ∧ covered ≤ f.start
    · rw [sweep_cons_of_kept kept.1 kept.2, sweep_cons_of_kept (by omega) (by omega), List.map_cons,
        ← ih inside here.stop_le]
      rfl
    · rw [sweep_cons_of_dropped (by omega), sweep_cons_of_dropped (by omega), ih inside bound]

/-- Counting places in another way that keeps their order leaves them in order. -/
theorem mergeSort_counted {φ : Nat → Nat} {last : Nat}
    (grows : ∀ m ≤ last, ∀ n ≤ last, φ m < φ n ↔ m < n) (inside : ∀ f ∈ fs, f.LiesWithin last) :
    (fs.map (·.counted φ)).mergeSort Found.notAfter =
      (fs.mergeSort Found.notAfter).map (·.counted φ) := by
  refine (List.map_mergeSort fun f hf g hg => ?_).symm
  have starts := grows _ (inside f hf).start_le _ (inside g hg).start_le
  have starts' := grows _ (inside g hg).start_le _ (inside f hf).start_le
  have stops := grows _ (inside g hg).stop_le _ (inside f hf).stop_le
  rw [Bool.eq_iff_iff, Found.notAfter_iff, Found.notAfter_iff]
  simp only [Found.counted]
  omega

end Sweep

end Highlighter

/-! ## Places that rules find -/

/-- What some rules find in a line, by patterns or in any other way. -/
structure LineSpans (line : List Char) where
  /-- For every rule the kind of its tokens and the places it finds. -/
  rules : List (HighlightKind × List (Nat × Nat))
  /-- What a rule finds lies inside the line. -/
  inside : ∀ rule ∈ rules, ∀ span ∈ rule.2, span.1 ≤ span.2 ∧ span.2 ≤ line.length
  /-- No rule finds two places with one start, those apart that take nothing. -/
  one : ∀ rule ∈ rules, ∀ span ∈ rule.2, ∀ other ∈ rule.2, span.1 < span.2 → other.1 < other.2 →
    span.1 = other.1 → span = other

namespace LineSpans

variable {line : List Char} (spans : LineSpans line)

theorem liesWithin {f : Found} (hf : f ∈ Found.ofSpans spans.rules) :
    f.LiesWithin line.length := by
  obtain ⟨rule, there, span, -⟩ := Found.mem_ofSpans_iff.mp hf
  obtain ⟨le, inside⟩ := spans.inside rule (List.mem_of_getElem? there) _ span
  exact ⟨le, inside⟩

theorem oneByStart : Found.OneByStart (Found.ofSpans spans.rules) := by
  intro f hf g hg takes takes' same rule
  obtain ⟨r, there, span, kind⟩ := Found.mem_ofSpans_iff.mp hf
  obtain ⟨r', there', span', kind'⟩ := Found.mem_ofSpans_iff.mp hg
  rw [← rule, there] at there'
  cases there'
  have equal := spans.one r (List.mem_of_getElem? there) _ span _ span' takes takes' same
  have kinds : f.kind = g.kind := kind.trans kind'.symm
  cases f
  cases g
  rw [Found.mk.injEq]
  exact ⟨same, rule, congrArg Prod.snd equal, kinds⟩

end LineSpans

/-! ## Places that patterns find -/

section Spans

variable {rule : HighlightRule} {line : List Char}

/-- What a rule finds lies inside the line. -/
theorem le_of_mem_spans {span : Nat × Nat} (h : span ∈ rule.spans line) :
    span.1 ≤ span.2 ∧ span.2 ≤ line.length := by
  obtain ⟨m, hm, found⟩ := List.mem_filterMap.mp h
  obtain ⟨w, place, -, here⟩ := Pattern.exists_place_of_mem_allMatches hm
  obtain ⟨-, le, inside⟩ := Pattern.Match.within_of_span? here found
  exact ⟨le, Nat.le_trans inside (Pattern.stop_le_of_mem_allMatches hm)⟩

/-- **What a rule finds lies apart.** -/
theorem pairwise_spans (rule : HighlightRule) (line : List Char) :
    (rule.spans line).Pairwise fun first second => first.2 ≤ second.1 := by
  refine List.pairwise_filterMap.mpr ((Pattern.pairwise_allMatches rule.pattern line).imp_of_mem ?_)
  intro m m' hm hm' before first found second found'
  obtain ⟨_, _, -, here⟩ := Pattern.exists_place_of_mem_allMatches hm
  obtain ⟨_, _, -, here'⟩ := Pattern.exists_place_of_mem_allMatches hm'
  have inside := (Pattern.Match.within_of_span? here found).2.2
  have inside' := (Pattern.Match.within_of_span? here' found').1
  omega

/-- So no two places of a rule that take something have one start. -/
theorem span_eq_of_start_eq {span other : Nat × Nat} (h : span ∈ rule.spans line)
    (h' : other ∈ rule.spans line) (takes : span.1 < span.2) (takes' : other.1 < other.2)
    (same : span.1 = other.1) : span = other := by
  rcases eq_or_rel_of_pairwise (pairwise_spans rule line) h h' with equal | before | behind
  · exact equal
  · omega
  · omega

/-- What the rules of a highlighter find in a line. -/
def Highlighter.lineSpans (h : Highlighter) (line : List Char) : LineSpans line where
  rules := h.spans line
  inside := by
    intro rule hrule span hspan
    obtain ⟨r, -, rfl⟩ := List.mem_map.mp hrule
    exact le_of_mem_spans hspan
  one := by
    intro rule hrule span hspan other hother
    obtain ⟨r, -, rfl⟩ := List.mem_map.mp hrule
    exact span_eq_of_start_eq hspan hother

end Spans

/-! ## Tokens -/

/-- The token of a place on a line. -/
def Found.token (number : Nat) (f : Found) : Token :=
  ⟨number, f.start, f.stop, f.kind⟩

/-- The same place with its ends counted in bytes of the line. -/
def Found.inBytes (line : List Char) : Found → Found :=
  Found.counted (Text.bytesBefore line)

/-- The token of a place that is counted in bytes. -/
def Found.tokenOfBytes (number : Nat) (line : List Char) (f : Found) : Token :=
  ⟨number, Text.columnOfByte line f.start, Text.columnOfByte line f.stop, f.kind⟩

/-- The first token stands before the second in a text. -/
def Token.IsBefore (s t : Token) : Prop :=
  s.line < t.line ∨ s.line = t.line ∧ s.start < t.start

/-- What the tokens of a line are, of all the places that rules find in it. -/
structure ResolvesLine (rules : List (HighlightKind × List (Nat × Nat))) (number : Nat)
    (line : List Char) (tokens : List Token) : Prop where
  /-- The places are those that the rules find, each with the kind of its rule. -/
  places : ∀ f, f ∈ Found.ofSpans rules ↔ ∃ rule, rules[f.rule]? = some rule ∧
    (f.start, f.stop) ∈ rule.2 ∧ f.kind = rule.1
  /-- The tokens are the places that win, and only these can win. -/
  resolved : ∃ kept, tokens = kept.map (Found.token number) ∧
    ∀ other, Resolves (Found.ofSpans rules) other ↔ other = kept
  /-- A token takes something and ends inside the line. -/
  inside : ∀ t ∈ tokens, t.line = number ∧ t.start < t.stop ∧ t.stop ≤ line.length
  /-- A token starts where all tokens before it have ended. -/
  apart : tokens.Pairwise (·.stop ≤ ·.start)
  /-- The same tokens come of places that are counted in bytes. -/
  inBytes : tokens =
    (Highlighter.sweep 0 (((Found.ofSpans rules).map (Found.inBytes line)).mergeSort
      Found.notAfter)).map (Found.tokenOfBytes number line)

/-- What the tokens of a text are, of all the places that rules find in its lines. -/
structure ResolvesText (find : List Char → List (HighlightKind × List (Nat × Nat)))
    (table : Text.LineTable) (tokens : List Token) : Prop where
  /-- They are those of the lines, one line after the other. -/
  byLine : ∃ parts, tokens = List.flatten parts ∧ List.Forall₂ (fun x part =>
    ResolvesLine (find (Text.dropReturn x.1)) x.2 (Text.dropReturn x.1) part)
      (table.lines.zipIdx 1) parts
  /-- They stand one behind the other. -/
  ordered : tokens.Pairwise Token.IsBefore

namespace Highlighter

section Line

variable {line : List Char}

/-- **It makes no difference whether columns are counted in bytes**, if they are turned to
characters in the end. -/
theorem tokensOf_eq_inBytes (number : Nat) {fs : List Found}
    (within : ∀ f ∈ fs, f.LiesWithin line.length) :
    tokensOf number fs =
      (sweep 0 ((fs.map (Found.inBytes line)).mergeSort Found.notAfter)).map
        (Found.tokenOfBytes number line) := by
  have grows : ∀ m ≤ line.length, ∀ n ≤ line.length,
      Text.bytesBefore line m < Text.bytesBefore line n ↔ m < n :=
    fun _ inside _ inside' => Text.bytesBefore_lt_iff inside inside'
  have within' : ∀ f ∈ fs.mergeSort Found.notAfter, f.LiesWithin line.length :=
    fun f hf => within f (List.mem_mergeSort.mp hf)
  have swept := sweep_map grows within' (Nat.zero_le _)
  have sorted := mergeSort_counted grows within
  have nothing : Text.bytesBefore line 0 = 0 := rfl
  rw [nothing] at swept
  rw [tokensOf]
  unfold Found.inBytes
  rw [sorted, swept, List.map_map]
  refine List.map_congr_left fun f hf => ?_
  have inside := within' f ((sweep_sublist _ _).subset hf)
  show Token.mk number f.start f.stop f.kind =
    Token.mk number (Text.columnOfByte line (Text.bytesBefore line f.start))
      (Text.columnOfByte line (Text.bytesBefore line f.stop)) f.kind
  rw [Text.columnOfByte_bytesBefore inside.start_le, Text.columnOfByte_bytesBefore inside.stop_le]

theorem resolvesLine_tokensOf (spans : LineSpans line) (number : Nat) :
    ResolvesLine spans.rules number line (tokensOf number (Found.ofSpans spans.rules)) := by
  have within : ∀ f ∈ Found.ofSpans spans.rules, f.LiesWithin line.length :=
    fun _ => spans.liesWithin
  have resolves := resolves_sweep spans.oneByStart
  refine ⟨fun _ => Found.mem_ofSpans_iff, ⟨_, rfl, fun other => ?_⟩, ?_, ?_,
    tokensOf_eq_inBytes number within⟩
  · constructor
    · intro resolves'
      exact resolves'.unique resolves
    · rintro rfl
      exact resolves
  · intro t ht
    obtain ⟨f, hf, rfl⟩ := List.mem_map.mp ht
    obtain ⟨there, takes⟩ := resolves.taken f hf
    exact ⟨rfl, takes, (within f there).stop_le⟩
  · exact List.pairwise_map.mpr resolves.apart

end Line

/-- The tokens of a text stand one behind the other. -/
theorem pairwise_tokensBy (find : (line : List Char) → LineSpans line) (table : Text.LineTable) :
    (tokensBy (fun line => Found.ofSpans (find line).rules) table).Pairwise Token.IsBefore := by
  have onLine : ∀ x : List Char × Nat, ResolvesLine (find (Text.dropReturn x.1)).rules x.2
      (Text.dropReturn x.1) (tokensOf x.2 (Found.ofSpans (find (Text.dropReturn x.1)).rules)) :=
    fun x => resolvesLine_tokensOf _ _
  refine List.pairwise_flatMap.mpr ⟨fun x _ => ?_, ?_⟩
  · refine (onLine x).apart.imp_of_mem fun {s t} hs ht before => .inr ?_
    obtain ⟨number, takes, -⟩ := (onLine x).inside s hs
    exact ⟨number.trans ((onLine x).inside t ht).1.symm, Nat.lt_of_lt_of_le takes before⟩
  · refine (pairwise_snd_zipIdx table.lines 1).imp fun {x y} before s hs t ht => .inl ?_
    rw [((onLine x).inside s hs).1, ((onLine y).inside t ht).1]
    exact before

theorem resolvesText_tokensBy (find : (line : List Char) → LineSpans line)
    (table : Text.LineTable) :
    ResolvesText (fun line => (find line).rules) table
      (tokensBy (fun line => Found.ofSpans (find line).rules) table) := by
  refine ⟨⟨_, List.flatMap_def, ?_⟩, pairwise_tokensBy find table⟩
  rw [List.forall₂_map_right_iff, List.forall₂_same]
  exact fun x _ => resolvesLine_tokensOf (find (Text.dropReturn x.1)) x.2

/-- **Overlaps are resolved by the earliest start, then the earliest rule**, whatever the rules and
the line, and the tokens of a text stand in the order of the text. It is no matter how rules find
their places. -/
theorem resolves_tokens (h : Highlighter) :
    (∀ number line, ResolvesLine (h.rules.map fun rule => (rule.kind, rule.spans line)) number line
      (h.tokensOfLine number line)) ∧
    (∀ table, ResolvesText (fun line => h.rules.map fun rule => (rule.kind, rule.spans line)) table
      (h.tokens table)) ∧
    (∀ rule ∈ h.rules, ∀ line, rule.spans line =
      (rule.pattern.allMatches line).filterMap (·.span? (rule.group.getD 0))) ∧
    ∀ find : (line : List Char) → LineSpans line,
      (∀ number line, ResolvesLine (find line).rules number line
        (tokensOf number (Found.ofSpans (find line).rules))) ∧
      ∀ table, ResolvesText (fun line => (find line).rules) table
        (tokensBy (fun line => Found.ofSpans (find line).rules) table) :=
  ⟨fun number line => resolvesLine_tokensOf (h.lineSpans line) number,
    resolvesText_tokensBy h.lineSpans, fun _ _ _ => rfl,
    fun find => ⟨fun number line => resolvesLine_tokensOf (find line) number,
      resolvesText_tokensBy find⟩⟩

end Highlighter

end Language

end LiveLint
