import LiveLint.Proofs.Merging

/-!
# Applying a configuration

A configuration drops the findings whose code it switches off and gives those of some codes another
severity; nothing else of a finding changes, and a finding without a code is not touched
(`LintConfig.Projects`). Whether a finding is kept depends on its code, where it sorts on its line,
and neither changes. So a filter by anything but the severity may as well be done first
(`LintConfig.filter_apply`), and from this all else follows: to apply a configuration twice is to
apply it once, and it makes no difference whether findings are sorted before or after, or whether
the parts of a report are decided on one by one.
-/

namespace LiveLint

namespace LintConfig

open Diagnostic (withKey)

variable {config : LintConfig} {d e : Diagnostic} {ds es : List Diagnostic}

/-! ## What is dropped and what changes -/

/-- What becomes of a finding that is kept. -/
inductive Regraded (config : LintConfig) : Diagnostic → Diagnostic → Prop
  /-- A finding without a code stays as it is. -/
  | codeless {d : Diagnostic} : d.code = none → Regraded config d d
  /-- So does one with a code on which nothing is decided. -/
  | plain {d : Diagnostic} {code : String} :
      d.code = some code → config.severity.lookup code = none → Regraded config d d
  /-- A finding with another code gets the severity of the code, and nothing else. -/
  | overridden {d : Diagnostic} {code : String} {s : Severity} :
      d.code = some code → config.severity.lookup code = some s →
      Regraded config d { d with severity := s }

/-- The second list has the findings of the first that are not switched off, in their order. -/
inductive Projects (config : LintConfig) : List Diagnostic → List Diagnostic → Prop
  | nil : Projects config [] []
  | dropped {d : Diagnostic} {code : String} {ds es : List Diagnostic} :
      d.code = some code → code ∈ config.disabled → Projects config ds es →
      Projects config (d :: ds) es
  | kept {d e : Diagnostic} {ds es : List Diagnostic} :
      (∀ code ∈ d.code, code ∉ config.disabled) → Regraded config d e → Projects config ds es →
      Projects config (d :: ds) (e :: es)

theorem keeps_iff : config.keeps d = true ↔ ∀ code ∈ d.code, code ∉ config.disabled := by
  rw [keeps, Option.all_eq_true]
  simp only [allowsCode, decide_eq_true_eq, Option.mem_def]

theorem not_keeps_iff : config.keeps d = false ↔ ∃ code ∈ d.code, code ∈ config.disabled := by
  rw [← Bool.not_eq_true, keeps_iff]
  simp only [not_forall, not_not, exists_prop]

theorem adjust_of_severityOf (h : config.severityOf d = d.severity) : config.adjust d = d := by
  rw [adjust, h]

theorem severityOf_of_codeless (config : LintConfig) (h : d.code = none) :
    config.severityOf d = d.severity := by
  rw [severityOf, h]
  rfl

theorem severityOf_of_code (config : LintConfig) {code : String} (h : d.code = some code) :
    config.severityOf d = (config.severity.lookup code).getD d.severity := by
  rw [severityOf, h]
  rfl

theorem regraded_adjust (config : LintConfig) (d : Diagnostic) :
    Regraded config d (config.adjust d) := by
  cases code : d.code with
  | none =>
    rw [adjust_of_severityOf (severityOf_of_codeless config code)]
    exact .codeless code
  | some c =>
    have severity := severityOf_of_code config code
    cases decided : config.severity.lookup c with
    | none =>
      rw [decided] at severity
      rw [adjust_of_severityOf severity]
      exact .plain code decided
    | some s =>
      rw [decided] at severity
      rw [adjust, severity]
      exact .overridden code decided

theorem Regraded.eq_adjust (h : Regraded config d e) : e = config.adjust d := by
  cases h with
  | codeless code => exact (adjust_of_severityOf (severityOf_of_codeless config code)).symm
  | plain code decided =>
    have same := severityOf_of_code config code
    rw [decided] at same
    exact (adjust_of_severityOf same).symm
  | overridden code decided =>
    rw [adjust, severityOf_of_code config code, decided]
    rfl

theorem apply_cons_of_keeps (h : config.keeps d = true) (ds : List Diagnostic) :
    config.apply (d :: ds) = config.adjust d :: config.apply ds := by
  rw [apply, List.filter_cons_of_pos h, List.map_cons]
  rfl

theorem apply_cons_of_not_keeps (h : config.keeps d = false) (ds : List Diagnostic) :
    config.apply (d :: ds) = config.apply ds := by
  rw [apply, List.filter_cons_of_neg (Bool.eq_false_iff.mp h)]
  rfl

theorem projects_apply (config : LintConfig) (ds : List Diagnostic) :
    Projects config ds (config.apply ds) := by
  induction ds with
  | nil => exact .nil
  | cons d ds ih =>
    cases kept : config.keeps d with
    | true =>
      rw [apply_cons_of_keeps kept]
      exact .kept (keeps_iff.mp kept) (regraded_adjust config d) ih
    | false =>
      rw [apply_cons_of_not_keeps kept]
      obtain ⟨code, has, off⟩ := not_keeps_iff.mp kept
      exact .dropped has off ih

theorem Projects.eq_apply (h : Projects config ds es) : es = config.apply ds := by
  induction h with
  | nil => rfl
  | dropped has off _ ih => rw [ih, apply_cons_of_not_keeps (not_keeps_iff.mpr ⟨_, has, off⟩)]
  | kept on regraded _ ih => rw [ih, regraded.eq_adjust, apply_cons_of_keeps (keeps_iff.mpr on)]

theorem projects_iff : Projects config ds es ↔ es = config.apply ds :=
  ⟨Projects.eq_apply, fun h => h ▸ projects_apply config ds⟩

/-! ## Filters, and applying twice -/

theorem keeps_adjust (config : LintConfig) (d : Diagnostic) :
    config.keeps (config.adjust d) = config.keeps d := rfl

theorem adjust_adjust (config : LintConfig) (d : Diagnostic) :
    config.adjust (config.adjust d) = config.adjust d := by
  refine adjust_of_severityOf ?_
  change (d.code.bind _).getD ((d.code.bind _).getD d.severity) = (d.code.bind _).getD d.severity
  cases d.code.bind fun code => config.severity.lookup code <;> rfl

/-- A filter that does not look at severities may be done first. -/
theorem filter_apply {p : Diagnostic → Bool} (same : ∀ d, p (config.adjust d) = p d)
    (ds : List Diagnostic) : (config.apply ds).filter p = config.apply (ds.filter p) := by
  have unchanged : p ∘ config.adjust = p := funext same
  rw [apply, apply, List.filter_map, unchanged, List.filter_filter, List.filter_filter]
  simp only [Bool.and_comm]

theorem apply_apply (config : LintConfig) (ds : List Diagnostic) :
    config.apply (config.apply ds) = config.apply ds := by
  calc config.apply (config.apply ds)
      = (config.apply (ds.filter config.keeps)).map config.adjust := by
        rw [← filter_apply (keeps_adjust config)]
        rfl
    _ = (config.apply ds).map config.adjust := by
        rw [apply, apply, List.filter_filter]
        simp only [Bool.and_self]
    _ = config.apply ds := by
        rw [apply, List.map_map]
        exact List.map_congr_left fun d _ => adjust_adjust config d

/-! ## Sorting and merging -/

theorem sortKey_adjust (config : LintConfig) (d : Diagnostic) :
    (config.adjust d).sortKey = d.sortKey := rfl

theorem withKey_apply (key : Nat) (ds : List Diagnostic) :
    withKey key (config.apply ds) = config.apply (withKey key ds) :=
  filter_apply (fun d => by rw [sortKey_adjust]) ds

theorem apply_flatten (config : LintConfig) (parts : List (List Diagnostic)) :
    config.apply parts.flatten = (parts.map config.apply).flatten := by
  induction parts with
  | nil => rfl
  | cons ds parts ih => rw [List.flatten_cons, apply_append, ih, List.map_cons, List.flatten_cons]

theorem pairwise_apply (sorted : ds.Pairwise fun d e => d.notAfter e = true) :
    (config.apply ds).Pairwise fun d e => d.notAfter e = true := by
  rw [apply, List.pairwise_map]
  exact sorted.filter _

/-- The report with the findings that are let through; what is left of a report is in order. -/
def applyTo (config : LintConfig) (r : Report) : Report :=
  ⟨config.apply r.diagnostics, pairwise_apply r.sorted⟩

/-- **It makes no difference whether findings are sorted before or after.** -/
theorem ofDiagnostics_apply (config : LintConfig) (ds : List Diagnostic) :
    Report.ofDiagnostics (config.apply ds) = config.applyTo (.ofDiagnostics ds) := by
  refine Report.ext_withKey fun key => ?_
  rw [Report.withKey_ofDiagnostics, applyTo, withKey_apply, withKey_apply,
    Report.withKey_ofDiagnostics]

theorem merge_map_applyTo (config : LintConfig) (reports : List Report) :
    Report.merge (reports.map config.applyTo) = config.applyTo (.merge reports) := by
  have parts : (reports.map config.applyTo).flatMap Report.diagnostics =
      config.apply (reports.flatMap Report.diagnostics) := by
    rw [List.flatMap_def, List.flatMap_def, apply_flatten, List.map_map, List.map_map]
    rfl
  rw [Report.merge, Report.merge, parts, ofDiagnostics_apply]

end LintConfig

/-- **Applying a configuration is a projection that commutes with sorting and merging.** It drops
the findings whose codes are switched off and changes the severities that are decided on, in the
order of the findings; to apply it twice is to apply it once; findings may be sorted before or
after; and the parts of a report may be decided on one by one before they are merged. -/
theorem LintConfig.apply_isProjection (config : LintConfig) :
    (∀ ds es, Projects config ds es ↔ es = config.apply ds) ∧
    (∀ ds, config.apply (config.apply ds) = config.apply ds) ∧
    (∀ ds, Report.ofDiagnostics (config.apply ds) = config.applyTo (.ofDiagnostics ds)) ∧
    ∀ parts : List (List Diagnostic),
      Report.merge (parts.map fun ds => .ofDiagnostics (config.apply ds)) =
        config.applyTo (.merge (parts.map .ofDiagnostics)) := by
  refine ⟨fun _ _ => projects_iff, apply_apply config, ofDiagnostics_apply config, fun parts => ?_⟩
  rw [← merge_map_applyTo, List.map_map]
  refine congrArg Report.merge (List.map_congr_left fun ds _ => ?_)
  exact ofDiagnostics_apply config ds

end LiveLint
