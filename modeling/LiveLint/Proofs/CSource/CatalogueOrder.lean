import LiveLint.Proofs.CSource.Anchors
import LiveLint.Proofs.Reports
import Mathlib.Data.Prod.Lex
import Mathlib.Order.WithBot

/-!
# The order of the issue list

The checks of a C source are made in the order of the catalogue, with one exception: tabs and
missing semicolons are looked for together, line by line. The report sorts what they find by lines
and leaves alone what is tied, and on one line the two checks of lines are in the order of the
catalogue as well. So the issue list is in order by line and then by rule
(`catalogueOrder_analyze`), whatever and however much is found on one line.

Sorting by lines is sorting by numbers of 64 bits, with the last of them for findings about no line.
For a text with fewer lines than that, no line is confused with none.
-/

namespace LiveLint

/-- A report orders by line, and on a line as the findings were ordered. -/
theorem Report.pairwise_ofDiagnostics {R : Diagnostic → Diagnostic → Prop} {ds : List Diagnostic}
    (tied : ds.Pairwise fun d e => d.sortKey = e.sortKey → R d e) :
    (ofDiagnostics ds).diagnostics.Pairwise fun d e =>
      d.sortKey < e.sortKey ∨ d.sortKey = e.sortKey ∧ R d e := by
  rw [List.pairwise_iff_forall_sublist] at tied ⊢
  intro d e shown
  have sorted := Diagnostic.notAfter_iff.mp
    (List.pairwise_iff_forall_sublist.mp (ofDiagnostics ds).sorted shown)
  rcases Nat.lt_or_eq_of_le sorted with before | same
  · exact .inl before
  · exact .inr ⟨same, tied ((pair_sublist_ofDiagnostics_iff same).mp shown) same⟩

namespace CSource

/-! ## Places in the catalogue -/

/-- The place in the catalogue of the rule that a diagnostic names. -/
def ruleIndex (d : Diagnostic) : Nat :=
  Rule.all.findIdx fun r => d.code == some r.code

/-- The place in the catalogue of the rule that makes a finding. -/
def Finding.index (f : Finding) : Nat :=
  Rule.all.idxOf f.rule

theorem ruleIndex_diagnostic (f : Finding) : ruleIndex f.diagnostic = f.index := by
  have same : ∀ r ∈ Rule.all, (Rule.all.findIdx fun s => some r.code == some s.code) =
      Rule.all.idxOf r := by decide +kernel
  exact same f.rule (Rule.mem_all f.rule)

theorem getElem?_index (f : Finding) : Rule.all[f.index]? = some f.rule :=
  List.getElem?_idxOf (Rule.mem_all f.rule)

/-- The sort key of a finding about a line is that line. -/
theorem sortKey_diagnostic {f : Finding} {n : Nat} (line : f.line = some n) (counted : 0 < n) :
    f.diagnostic.sortKey = n := by
  have kept : f.diagnostic.line = some n := by
    show f.line.filter (0 < ·) = some n
    simp [line, counted]
  rw [Diagnostic.sortKey, kept]
  rfl

/-! ## The order in which findings are made -/

/-- Findings that sort alike are in the order of the catalogue. -/
def InRuleOrder (found : List Finding) : Prop :=
  found.Pairwise fun f g => f.diagnostic.sortKey = g.diagnostic.sortKey → f.index ≤ g.index

/-- The findings are by different rules, from place `a` of the catalogue on and before place
`a + n`, and in their order. -/
def Covers (a n : Nat) (found : List Finding) : Prop :=
  ∃ possible, found.Sublist possible ∧ possible.map Finding.index = List.range' a n

section Order

variable {a n : Nat} {found more : List Finding} {cs : List Char}

theorem reportIf_sublist (b : Bool) (f : Finding) : (reportIf b f).Sublist [f] := by
  cases b
  · exact List.nil_sublist _
  · exact .refl _

theorem Covers.pairwise (h : Covers a n found) : found.Pairwise (·.index < ·.index) := by
  obtain ⟨possible, sublist, places⟩ := h
  have ascending : (possible.map Finding.index).Pairwise (· < ·) := by
    rw [places]
    exact List.pairwise_lt_range'
  exact (List.pairwise_map.mp ascending).sublist sublist

theorem Covers.bounds (h : Covers a n found) : ∀ f ∈ found, a ≤ f.index ∧ f.index < a + n := by
  obtain ⟨possible, sublist, places⟩ := h
  intro f hf
  have place := List.mem_map_of_mem (f := Finding.index) (sublist.subset hf)
  rw [places] at place
  exact List.mem_range'_1.mp place

/-- The findings are from place `a` of the catalogue on and before place `b`, and those that sort
alike are in its order. -/
structure Ordered (a b : Nat) (found : List Finding) : Prop where
  le : a ≤ b
  bounds : ∀ f ∈ found, a ≤ f.index ∧ f.index < b
  tied : InRuleOrder found

/-- What one check finds after the other is in order if the checks are. -/
theorem Ordered.append {b c : Nat} (h : Ordered a b found) (h' : Ordered b c more) :
    Ordered a c (found ++ more) where
  le := Nat.le_trans h.le h'.le
  bounds := by
    intro f hf
    rcases List.mem_append.mp hf with hf | hf
    · obtain ⟨low, high⟩ := h.bounds f hf
      exact ⟨low, Nat.lt_of_lt_of_le high h'.le⟩
    · obtain ⟨low, high⟩ := h'.bounds f hf
      exact ⟨Nat.le_trans h.le low, high⟩
  tied := by
    refine List.pairwise_append.mpr ⟨h.tied, h'.tied, fun f hf g hg _ => ?_⟩
    exact Nat.le_trans (Nat.le_of_lt (h.bounds f hf).2) (h'.bounds g hg).1

theorem Covers.ordered (h : Covers a n found) : Ordered a (a + n) found where
  le := Nat.le_add_right a n
  bounds := h.bounds
  tied := by
    refine h.pairwise.imp ?_
    intro f g before _
    exact Nat.le_of_lt before

theorem covers_shapeFindings (cs : List Char) : Covers 0 4 (shapeFindings cs) := by
  refine ⟨[.noMain, .oddMainType, .emptySource, .unbalanced], ?_, by decide⟩
  exact (((reportIf_sublist _ _).append (reportIf_sublist _ _)).append
    (reportIf_sublist _ _)).append (reportIf_sublist _ _)

theorem covers_includeFindings (cs : List Char) : Covers 4 4 (includeFindings cs) := by
  refine ⟨[.noStdio, .noStdioForPuts, .noStdlib, .noStringHeader], ?_, by decide⟩
  exact (((reportIf_sublist _ _).append (reportIf_sublist _ _)).append
    (reportIf_sublist _ _)).append (reportIf_sublist _ _)

theorem covers_callFindings (cs : List Char) : Covers 11 8 (callFindings cs) := by
  refine ⟨[.unendedOutput (firstCallLine cs "printf"), .neverFreed, .noReturnZero, .unsafeGets,
    .unguardedScanf, .unsafeStrcpy, .unflushedOutput (firstCallLine cs "printf"),
    .unboundedString], ?_, rfl⟩
  exact (((((((reportIf_sublist _ _).append (reportIf_sublist _ _)).append
    (reportIf_sublist _ _)).append (reportIf_sublist _ _)).append (reportIf_sublist _ _)).append
    (reportIf_sublist _ _)).append (reportIf_sublist _ _)).append (reportIf_sublist _ _)

theorem index_of_mem_variableFindings {f : Finding} (h : f ∈ variableFindings cs) :
    f.index = 8 := by
  obtain ⟨d, -, rfl⟩ := List.mem_map.mp h
  rfl

theorem ordered_variableFindings (cs : List Char) : Ordered 8 9 (variableFindings cs) where
  le := by decide
  bounds := by
    intro f hf
    rw [index_of_mem_variableFindings hf]
    decide
  tied := by
    refine List.pairwise_of_forall_mem_list fun f hf g hg _ => ?_
    rw [index_of_mem_variableFindings hf, index_of_mem_variableFindings hg]

/-! ### Findings of the line checks -/

/-- What is found on a line is about that line. -/
theorem of_mem_lineFindings {number : Nat} {line : List Char} {f : Finding}
    (h : f ∈ lineFindings number line) : f = .tab number ∨ f = .noSemicolon number := by
  rw [lineFindings] at h
  split at h
  · rcases List.mem_append.mp h with tab | semicolon
    · exact .inl (mem_reportIf.mp tab).2
    · exact .inr (mem_reportIf.mp semicolon).2
  · cases h

theorem covers_lineFindings (number : Nat) (line : List Char) :
    Covers 9 2 (lineFindings number line) := by
  refine ⟨[.tab number, .noSemicolon number], ?_, rfl⟩
  rw [lineFindings]
  split
  · exact (reportIf_sublist _ _).append (reportIf_sublist _ _)
  · exact List.nil_sublist _

theorem bounds_layoutFindings : ∀ f ∈ layoutFindings cs, 9 ≤ f.index ∧ f.index < 11 := by
  intro f h
  obtain ⟨⟨line, number⟩, -, here⟩ := List.mem_flatMap.mp h
  exact (covers_lineFindings number line).bounds f here

/-- **The line checks go line by line**: what they find is in order by line, and on a line by
rule. -/
theorem pairwise_layoutFindings (cs : List Char) :
    (layoutFindings cs).Pairwise fun f g => f.diagnostic.sortKey < g.diagnostic.sortKey ∨
      f.diagnostic.sortKey = g.diagnostic.sortKey ∧ f.index < g.index := by
  have counted : ∀ x ∈ (Text.splitLines cs).zipIdx 1, 0 < x.2 := fun x hx =>
    (Text.isLine_iff_mem_zipIdx.mpr hx).1
  have keyed : ∀ x ∈ (Text.splitLines cs).zipIdx 1, ∀ f ∈ lineFindings x.2 x.1,
      f.diagnostic.sortKey = x.2 := by
    intro x hx f hf
    rcases of_mem_lineFindings hf with rfl | rfl <;>
      exact sortKey_diagnostic rfl (counted x hx)
  refine List.pairwise_flatMap.mpr ⟨fun x hx => ?_, ?_⟩
  · refine (covers_lineFindings x.2 x.1).pairwise.imp_of_mem fun hf hg before => ?_
    exact .inr ⟨(keyed x hx _ hf).trans (keyed x hx _ hg).symm, before⟩
  · refine (pairwise_snd_zipIdx _ _).imp_of_mem fun {x y} hx hy before f hf g hg => .inl ?_
    rw [keyed x hx f hf, keyed y hy g hg]
    exact before

theorem ordered_layoutFindings (cs : List Char) : Ordered 9 11 (layoutFindings cs) where
  le := by decide
  bounds := bounds_layoutFindings
  tied := by
    refine (pairwise_layoutFindings cs).imp ?_
    rintro f g (before | ⟨-, before⟩) same
    · exact absurd same (Nat.ne_of_lt before)
    · exact Nat.le_of_lt before

/-! ### All findings -/

/-- **Findings that sort alike are made in the order of the catalogue.** -/
theorem ordered_findings (cs : List Char) : Ordered 0 19 (findings cs) := by
  have top := (covers_shapeFindings cs).ordered.append (covers_includeFindings cs).ordered
  have lines := (ordered_variableFindings cs).append (ordered_layoutFindings cs)
  have all := (top.append lines).append (covers_callFindings cs).ordered
  rwa [← List.append_assoc] at all

end Order

/-! ## The issue list -/

/-- Where a diagnostic sorts, and the place of its rule in the catalogue. -/
def keyPlace (d : Diagnostic) : Nat ×ₗ Nat :=
  toLex (d.sortKey, ruleIndex d)

/-- The line of a diagnostic, beyond all lines if it is about none, and the place of its rule in the
catalogue. -/
def linePlace (d : Diagnostic) : WithTop Nat ×ₗ Nat :=
  toLex (d.line.elim ⊤ WithTop.some, ruleIndex d)

/-- Whether a diagnostic is of one of the two checks that go line by line. -/
def isOfLineCheck (d : Diagnostic) : Bool :=
  d.code == some "C010" || d.code == some "C011"

/-- The issue list of a source has an order of its own, which is not that of the checks. -/
structure InCatalogueOrder (source : String) (found shown : List Diagnostic) : Prop where
  /-- Every rule has its place in the catalogue. -/
  known : ∀ d ∈ shown, ∃ r, Rule.all[ruleIndex d]? = some r ∧ d.code = some r.code
  /-- Issues are in order by the number they sort at, and under one number by rule. -/
  byKey : shown.Pairwise fun d e => keyPlace d ≤ keyPlace e
  /-- So they are in order by line, those about none last, and on a line by rule. -/
  byLine : (Text.LineTable.ofText source).lineCount < Diagnostic.lastSortKey →
    shown.Pairwise fun d e => linePlace d ≤ linePlace e
  /-- The two line checks are made on one line after the other. -/
  interleaved : (found.filter isOfLineCheck).Pairwise fun d e => keyPlace d < keyPlace e

section Shown

variable {source : String} {d e : Diagnostic}

theorem keyPlace_le_iff : keyPlace d ≤ keyPlace e ↔
    d.sortKey < e.sortKey ∨ d.sortKey = e.sortKey ∧ ruleIndex d ≤ ruleIndex e :=
  Prod.Lex.toLex_le_toLex

theorem keyPlace_lt_iff : keyPlace d < keyPlace e ↔
    d.sortKey < e.sortKey ∨ d.sortKey = e.sortKey ∧ ruleIndex d < ruleIndex e :=
  Prod.Lex.toLex_lt_toLex

/-- Where no line has the number that stands for none, the order by that number is the order by
line. -/
theorem linePlace_le_of_keyPlace (counted : ∀ n ∈ e.line, n < Diagnostic.lastSortKey)
    (h : keyPlace d ≤ keyPlace e) : linePlace d ≤ linePlace e := by
  rw [keyPlace_le_iff, Diagnostic.sortKey, Diagnostic.sortKey] at h
  rw [linePlace, linePlace, Prod.Lex.toLex_le_toLex]
  cases first : d.line with
  | none =>
    cases second : e.line with
    | none =>
      rw [first, second] at h
      exact h.imp (fun before => absurd before (lt_irrefl _)) fun tied => ⟨rfl, tied.2⟩
    | some n =>
      have := counted n second
      rw [first, second, Option.getD_none, Option.getD_some] at h
      omega
  | some m =>
    cases second : e.line with
    | none => exact .inl (WithTop.coe_lt_top m)
    | some n =>
      rw [first, second, Option.getD_some, Option.getD_some] at h
      exact h.imp WithTop.coe_lt_coe.mpr fun tied => ⟨congrArg WithTop.some tied.1, tied.2⟩

/-- A diagnostic about a line is about one that the text has. -/
theorem le_lineCount_of_mem_analyze (h : d ∈ analyze source) {n : Nat} (line : n ∈ d.line) :
    n ≤ (Text.LineTable.ofText source).lineCount := by
  obtain ⟨f, hf, rfl⟩ := List.mem_map.mp h
  have about : n ∈ f.line := (Option.filter_eq_some_iff.mp line).1
  obtain ⟨_, there, -⟩ := shows_of_mem_findings hf about
  exact there.le_length

theorem isOfLineCheck_diagnostic (f : Finding) :
    isOfLineCheck f.diagnostic = (decide (9 ≤ f.index) && decide (f.index < 11)) := by
  have same : ∀ r ∈ Rule.all, (some r.code == some "C010" || some r.code == some "C011") =
      (decide (9 ≤ Rule.all.idxOf r) && decide (Rule.all.idxOf r < 11)) := by decide +kernel
  exact same f.rule (Rule.mem_all f.rule)

/-- What the line checks find stands together. -/
theorem filter_isOfLineCheck (source : String) : (analyze source).filter isOfLineCheck =
    (layoutFindings source.toList).map Finding.diagnostic := by
  have apart : ∀ {found : List Finding}, (∀ f ∈ found, f.index < 9 ∨ 11 ≤ f.index) →
      found.filter (isOfLineCheck ∘ Finding.diagnostic) = [] := by
    intro found outside
    refine List.filter_eq_nil_iff.mpr fun f hf inside => ?_
    rw [Function.comp_apply, isOfLineCheck_diagnostic, Bool.and_eq_true, decide_eq_true_eq,
      decide_eq_true_eq] at inside
    have := outside f hf
    omega
  have own : (layoutFindings source.toList).filter (isOfLineCheck ∘ Finding.diagnostic) =
      layoutFindings source.toList := by
    refine List.filter_eq_self.mpr fun f hf => ?_
    rw [Function.comp_apply, isOfLineCheck_diagnostic, Bool.and_eq_true, decide_eq_true_eq,
      decide_eq_true_eq]
    exact bounds_layoutFindings f hf
  have top := (covers_shapeFindings source.toList).ordered.append
    (covers_includeFindings source.toList).ordered
  have before := apart fun f hf => .inl (Nat.lt_succ_of_lt (top.bounds f hf).2)
  have unused : (variableFindings source.toList).filter (isOfLineCheck ∘ Finding.diagnostic) = [] :=
    apart fun f hf => .inl ((ordered_variableFindings source.toList).bounds f hf).2
  have behind := apart fun f hf => .inr ((covers_callFindings source.toList).bounds f hf).1
  rw [analyze, List.filter_map, findings, List.filter_append, List.filter_append,
    List.filter_append, before, unused, own, behind, List.append_nil]
  rfl

/-- **The issue list of a C source is in order by line and then by rule**, for any text and any
number of findings on a line, although two of the checks are made line by line. -/
theorem catalogueOrder_analyze (source : String) :
    InCatalogueOrder source (analyze source)
      (Report.ofDiagnostics (analyze source)).diagnostics := by
  have sorted : (Report.ofDiagnostics (analyze source)).diagnostics.Pairwise fun d e =>
      keyPlace d ≤ keyPlace e := by
    refine (Report.pairwise_ofDiagnostics (R := fun d e => ruleIndex d ≤ ruleIndex e) ?_).imp
      keyPlace_le_iff.mpr
    refine List.pairwise_map.mpr ((ordered_findings source.toList).tied.imp ?_)
    intro f g ordered same
    rw [ruleIndex_diagnostic, ruleIndex_diagnostic]
    exact ordered same
  have there : ∀ d ∈ (Report.ofDiagnostics (analyze source)).diagnostics, d ∈ analyze source :=
    fun _ hd => (Report.ofDiagnostics_perm _).subset hd
  refine ⟨fun d hd => ?_, sorted, fun counted => ?_, ?_⟩
  · obtain ⟨f, -, rfl⟩ := List.mem_map.mp (there d hd)
    rw [ruleIndex_diagnostic]
    exact ⟨f.rule, getElem?_index f, rfl⟩
  · have inside : ∀ d ∈ (Report.ofDiagnostics (analyze source)).diagnostics, ∀ n ∈ d.line,
        n < Diagnostic.lastSortKey := fun d hd n line =>
      Nat.lt_of_le_of_lt (le_lineCount_of_mem_analyze (there d hd) line) counted
    exact sorted.imp_of_mem fun _ he => linePlace_le_of_keyPlace (inside _ he)
  · rw [filter_isOfLineCheck]
    refine List.pairwise_map.mpr ((pairwise_layoutFindings source.toList).imp ?_)
    intro f g before
    rw [keyPlace_lt_iff, ruleIndex_diagnostic, ruleIndex_diagnostic]
    exact before

/-- Tabs and missing semicolons on two lines are not found in the order of the catalogue, and are
shown by line and then in that order. -/
theorem catalogueOrder_analyze_tabs :
    (Text.LineTable.ofText "\tx\n\ty").lineCount < Diagnostic.lastSortKey ∧
      ¬((analyze "\tx\n\ty").Pairwise fun d e => ruleIndex d ≤ ruleIndex e) ∧
      (Report.ofDiagnostics (analyze "\tx\n\ty")).diagnostics.Pairwise fun d e =>
        linePlace d ≤ linePlace e := by
  have counted : (Text.LineTable.ofText "\tx\n\ty").lineCount < Diagnostic.lastSortKey := by
    decide +kernel
  exact ⟨counted, by decide +kernel, (catalogueOrder_analyze _).byLine counted⟩

end Shown

end CSource

end LiveLint
