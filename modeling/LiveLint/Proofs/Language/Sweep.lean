import LiveLint.Language.Highlight

/-!
# What the sweep keeps

The places that rules find in a line are put in order and swept from the left. What the sweep keeps
can be told without doing it: a place that starts before all others is kept first
(`sweep_eq_cons`), and places that lie one behind the other and leave no other place a start of its
own are all that is kept (`sweep_eq_of_cover`). Only places that take something count.
-/

namespace LiveLint.Language

namespace Found

theorem notAfter_iff {a b : Found} :
    a.notAfter b = true ↔ a.start < b.start ∨
      a.start = b.start ∧ (a.rule < b.rule ∨ a.rule = b.rule ∧ a.stop ≤ b.stop) := by
  simp [notAfter]

theorem notAfter_trans {a b c : Found} (h : a.notAfter b = true) (h' : b.notAfter c = true) :
    a.notAfter c = true := by
  rw [notAfter_iff] at h h' ⊢
  omega

theorem notAfter_total (a b : Found) : (a.notAfter b || b.notAfter a) = true := by
  rw [Bool.or_eq_true, notAfter_iff, notAfter_iff]
  omega

/-- Sorted places stand in the order in which they are looked at. -/
theorem pairwise_mergeSort (fs : List Found) :
    (fs.mergeSort notAfter).Pairwise fun a b => a.notAfter b = true := by
  have trans : ∀ a b c : Found, a.notAfter b = true → b.notAfter c = true →
      a.notAfter c = true := fun _ _ _ => notAfter_trans
  exact List.pairwise_mergeSort trans notAfter_total fs

/-- A place is one that its rule finds, and has the kind of the rule. -/
theorem mem_ofSpans_iff {rules : List (HighlightKind × List (Nat × Nat))} {f : Found} :
    f ∈ ofSpans rules ↔ ∃ rule, rules[f.rule]? = some rule ∧
      (f.start, f.stop) ∈ rule.2 ∧ f.kind = rule.1 := by
  simp only [ofSpans, List.mem_flatMap, List.mem_map, Prod.exists, List.mk_mem_zipIdx_iff_getElem?]
  constructor
  · rintro ⟨kind, spans, index, there, start, stop, span, rfl⟩
    exact ⟨kind, spans, there, span, rfl⟩
  · rintro ⟨kind, spans, there, span, same⟩
    refine ⟨kind, spans, f.rule, there, f.start, f.stop, span, ?_⟩
    rw [← same]

end Found

namespace Highlighter

variable {h : Highlighter} {line : List Char}

/-- What is found in a line is found by one of the rules. -/
theorem mem_found_iff {f : Found} :
    f ∈ h.found line ↔ ∃ rule, h.rules[f.rule]? = some rule ∧
      (f.start, f.stop) ∈ rule.spans line ∧ f.kind = rule.kind := by
  rw [found, Found.mem_ofSpans_iff, spans, List.getElem?_map]
  cases h.rules[f.rule]? <;> simp

/-- The places of a line in their order. -/
theorem pairwise_mergeSort_found :
    ((h.found line).mergeSort Found.notAfter).Pairwise (·.start ≤ ·.start) := by
  apply (Found.pairwise_mergeSort (h.found line)).imp
  intro a b before
  rw [Found.notAfter_iff] at before
  omega

/-! ## The sweep -/

section Sweep

variable {fs xs : List Found} {covered : Nat} {x : Found}

/-- A place that takes nothing, or starts where a kept one has not ended, is passed over. -/
theorem sweep_cons_of_dropped (h : x.start < x.stop → x.start < covered) :
    sweep covered (x :: fs) = sweep covered fs := by
  rw [sweep, if_pos]
  rw [Bool.or_eq_true, decide_eq_true_eq, decide_eq_true_eq]
  omega

theorem sweep_cons_of_kept (takes : x.start < x.stop) (free : covered ≤ x.start) :
    sweep covered (x :: fs) = x :: sweep x.stop fs := by
  rw [sweep, if_neg]
  rw [Bool.or_eq_true, decide_eq_true_eq, decide_eq_true_eq]
  omega

/-- A place that starts before all others is kept, and the sweep goes on behind it. -/
theorem sweep_eq_cons (sorted : fs.Pairwise (·.start ≤ ·.start)) (there : x ∈ fs)
    (takes : x.start < x.stop) (free : covered ≤ x.start)
    (first : ∀ f ∈ fs, f.start < f.stop → covered ≤ f.start → f = x ∨ x.start < f.start) :
    sweep covered fs = x :: sweep x.stop fs := by
  induction fs with
  | nil => cases there
  | cons f fs ih =>
    obtain ⟨least, sorted⟩ := List.pairwise_cons.mp sorted
    by_cases same : f = x
    · subst same
      rw [sweep_cons_of_kept takes free, sweep_cons_of_dropped fun _ => takes]
    · have there : x ∈ fs := by
        rcases List.mem_cons.mp there with rfl | there
        · exact absurd rfl same
        · exact there
      -- what stands before `x` takes nothing, or starts where nothing may start any more
      have idle : f.start < f.stop → f.start < covered := by
        intro takes'
        apply Nat.lt_of_not_le
        intro later
        rcases first f List.mem_cons_self takes' later with rfl | after
        · exact same rfl
        · have := least x there
          omega
      have idle' : f.start < f.stop → f.start < x.stop := by
        intro takes'
        have := idle takes'
        omega
      rw [sweep_cons_of_dropped idle, sweep_cons_of_dropped idle',
        ih sorted there fun g hg => first g (List.mem_cons_of_mem f hg)]

theorem sweep_eq_nil (behind : ∀ f ∈ fs, f.start < f.stop → f.start < covered) :
    sweep covered fs = [] := by
  induction fs with
  | nil => rfl
  | cons f fs ih =>
    obtain ⟨here, behind⟩ := List.forall_mem_cons.mp behind
    rw [sweep_cons_of_dropped here, ih behind]

/-- Places that lie one behind the other are all that is kept, if every other place starts inside
one of them. -/
theorem sweep_eq_of_cover (sorted : fs.Pairwise (·.start ≤ ·.start)) (there : ∀ x ∈ xs, x ∈ fs)
    (apart : xs.Pairwise (·.stop ≤ ·.start))
    (own : ∀ x ∈ xs, covered ≤ x.start ∧ x.start < x.stop)
    (cover : ∀ f ∈ fs, f.start < f.stop → covered ≤ f.start →
      ∃ x ∈ xs, f = x ∨ x.start < f.start ∧ f.start < x.stop) :
    sweep covered fs = xs := by
  induction xs generalizing covered with
  | nil =>
    refine sweep_eq_nil fun f hf takes => Nat.lt_of_not_le fun later => ?_
    obtain ⟨x, hx, -⟩ := cover f hf takes later
    cases hx
  | cons x xs ih =>
    obtain ⟨here, there⟩ := List.forall_mem_cons.mp there
    obtain ⟨behind, apart⟩ := List.pairwise_cons.mp apart
    obtain ⟨⟨free, takes⟩, own⟩ := List.forall_mem_cons.mp own
    have first : ∀ f ∈ fs, f.start < f.stop → covered ≤ f.start → f = x ∨ x.start < f.start := by
      intro f hf takes' free'
      obtain ⟨y, hy, inside⟩ := cover f hf takes' free'
      rcases List.mem_cons.mp hy with rfl | hy
      · exact inside.imp_right And.left
      · have := behind y hy
        rcases inside with rfl | inside <;> exact .inr (by omega)
    rw [sweep_eq_cons sorted here takes free first]
    have rest : sweep x.stop fs = xs := by
      refine ih there apart (fun y hy => ⟨behind y hy, (own y hy).2⟩) fun f hf takes' free' => ?_
      obtain ⟨y, hy, inside⟩ := cover f hf takes' (by omega)
      rcases List.mem_cons.mp hy with rfl | hy
      · rcases inside with rfl | inside <;> omega
      · exact ⟨y, hy, inside⟩
    rw [rest]

end Sweep

/-! ## Tokens -/

variable {number : Nat} {x : Found}

/-- A token stands where a rule found something. -/
theorem exists_found_of_mem_tokensOfLine {t : Token} (ht : t ∈ h.tokensOfLine number line) :
    ∃ f ∈ h.found line, t = ⟨number, f.start, f.stop, f.kind⟩ := by
  obtain ⟨f, kept, rfl⟩ := List.mem_map.mp ht
  exact ⟨f, List.mem_mergeSort.mp ((sweep_sublist _ _).subset kept), rfl⟩

/-- The place that starts before all others is the first token. -/
theorem head?_tokensOfLine (there : x ∈ h.found line) (takes : x.start < x.stop)
    (first : ∀ f ∈ h.found line, f.start < f.stop → f = x ∨ x.start < f.start) :
    (h.tokensOfLine number line).head? = some ⟨number, x.start, x.stop, x.kind⟩ := by
  have there : x ∈ (h.found line).mergeSort Found.notAfter := List.mem_mergeSort.mpr there
  rw [tokensOfLine, tokensOf, sweep_eq_cons pairwise_mergeSort_found there takes (Nat.zero_le _)
    fun f hf takes' _ => first f (List.mem_mergeSort.mp hf) takes']
  rfl

/-- Places that cover every other one are the tokens. -/
theorem tokensOfLine_eq_of_cover (xs : List Found) (there : ∀ x ∈ xs, x ∈ h.found line)
    (apart : xs.Pairwise (·.stop ≤ ·.start)) (takes : ∀ x ∈ xs, x.start < x.stop)
    (cover : ∀ f ∈ h.found line, f.start < f.stop →
      ∃ x ∈ xs, f = x ∨ x.start < f.start ∧ f.start < x.stop) :
    h.tokensOfLine number line = xs.map fun f => ⟨number, f.start, f.stop, f.kind⟩ := by
  rw [tokensOfLine, tokensOf, sweep_eq_of_cover pairwise_mergeSort_found
    (fun x hx => List.mem_mergeSort.mpr (there x hx)) apart
    (fun x hx => ⟨Nat.zero_le _, takes x hx⟩)
    fun f hf takes' _ => cover f (List.mem_mergeSort.mp hf) takes']

/-- A place that covers every other one is the only token. -/
theorem tokensOfLine_eq_singleton (x : Found) (there : x ∈ h.found line) (takes : x.start < x.stop)
    (cover : ∀ f ∈ h.found line, f.start < f.stop →
      f = x ∨ x.start < f.start ∧ f.start < x.stop) :
    h.tokensOfLine number line = [⟨number, x.start, x.stop, x.kind⟩] :=
  tokensOfLine_eq_of_cover [x] (List.forall_mem_singleton.mpr there) (List.pairwise_singleton _ x)
    (List.forall_mem_singleton.mpr takes)
    fun f hf takes' => ⟨x, List.mem_cons_self, cover f hf takes'⟩

end Highlighter

end LiveLint.Language
