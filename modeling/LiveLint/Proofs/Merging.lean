import LiveLint.Proofs.Reports
import LiveLint.Proofs.Workspace.Ledger

/-!
# Merging reports

A merged report sorts findings that were sorted before, in reports of their own. Sorting first the
parts and then all of them gives what sorting all of them at once would, because no sort tears a
tie apart: at each sort key the merged report has the findings of the first part, then those of the
second, and so on (`Report.withKey_merge`). So it makes no difference how reports are gathered
before they are merged (`Report.merge_map_merge`), and the one report on both buffers of a
workspace is what one sort of all their findings gives.
-/

namespace LiveLint

namespace Report

open Diagnostic (withKey)

/-- The report has the given findings, sorted once. -/
structure SortsOnce (ds : List Diagnostic) (r : Report) : Prop where
  eq : r = ofDiagnostics ds
  /-- Nothing is lost and nothing is there twice. -/
  perm : r.diagnostics.Perm ds
  /-- What sorts alike keeps its order. -/
  ties : ∀ key, withKey key r.diagnostics = withKey key ds

theorem sortsOnce_ofDiagnostics (ds : List Diagnostic) : SortsOnce ds (ofDiagnostics ds) where
  eq := rfl
  perm := ofDiagnostics_perm ds
  ties key := withKey_ofDiagnostics key ds

/-- At each sort key a merged report has the findings of its parts, one part after the other. -/
theorem withKey_merge (key : Nat) (reports : List Report) :
    withKey key (merge reports).diagnostics =
      reports.flatMap fun r => withKey key r.diagnostics := by
  rw [merge, withKey_ofDiagnostics, withKey, List.filter_flatMap]
  rfl

/-- **Sorting the parts first makes no difference.** -/
theorem merge_map_ofDiagnostics (parts : List (List Diagnostic)) :
    merge (parts.map ofDiagnostics) = ofDiagnostics parts.flatten := by
  refine ext_withKey fun key => ?_
  rw [withKey_merge, List.flatMap_map, withKey_ofDiagnostics, Diagnostic.withKey_flatten,
    List.flatMap_def]
  simp only [withKey_ofDiagnostics]

/-- How reports are gathered before they are merged makes no difference. -/
theorem merge_map_merge (groups : List (List Report)) :
    merge (groups.map merge) = merge groups.flatten := by
  refine ext_withKey fun key => ?_
  rw [withKey_merge, withKey_merge, List.flatMap_map, ← List.flatMap_id, List.flatMap_assoc]
  simp only [withKey_merge, id_eq]

theorem merge_singleton (r : Report) : merge [r] = r := by
  rw [merge, List.flatMap_singleton, ofDiagnostics_diagnostics]

variable (r s t : Report)

theorem merge_assoc : merge [merge [r, s], t] = merge [r, merge [s, t]] := by
  have left := merge_map_merge [[r, s], [t]]
  have right := merge_map_merge [[r], [s, t]]
  simp only [List.map_cons, List.map_nil, merge_singleton] at left right
  rw [left, right]
  rfl

theorem merge_empty_left : merge [empty, r] = r :=
  merge_singleton r

theorem merge_empty_right : merge [r, empty] = r := by
  refine Eq.trans ?_ (merge_singleton r)
  rw [merge, merge, List.flatMap_cons]
  rfl

end Report

namespace Workspace

/-- What the last pass over the buffer of a kind had to sort: what the analyzer finds, as far as
the configuration lets it through. -/
def findings (w : Workspace) (kind : SourceKind) : List Diagnostic :=
  let d := w.buffer kind
  if w.config.checksKind kind then w.config.apply (d.analyzer.analyze d.text) else []

/-- After any run the report on a buffer is what its analyzer finds, sorted. -/
theorem report_run (config : LintConfig) (ops : List Op) (kind : SourceKind) :
    (((start config).run ops).buffer kind).report =
      .ofDiagnostics (((start config).run ops).findings kind) := by
  have settled := settled_run (settled_start config) ops kind
  have agrees := agrees_run (agrees_start config kind) ops
  rw [settled.report_eq, agrees.buffer.kind_eq, Analyzer.report, findings]
  split
  · rfl
  · exact (Report.ofDiagnostics_diagnostics .empty).symm

/-- The one report of a workspace sorts what was found in the C source and then what was found in
the build configuration. -/
theorem combined_run (config : LintConfig) (ops : List Op) :
    let w := (start config).run ops
    w.combined = .ofDiagnostics (w.findings .c ++ w.findings .buildconf) := by
  intro w
  have c : w.c.report = _ := report_run config ops .c
  have buildconf : w.buildconf.report = _ := report_run config ops .buildconf
  rw [combined, c, buildconf]
  have merged := Report.merge_map_ofDiagnostics [w.findings .c, w.findings .buildconf]
  rwa [List.flatten_cons, List.flatten_singleton] at merged

end Workspace

/-- **Merging sorts once.** The report merged from sorted parts is the sort of all parts, one after
the other. So merging is associative, the empty report is its unit on both sides, and after any run
of a workspace its one report is the sort of all that was found in both buffers. -/
theorem merge_sortsOnce :
    (∀ parts : List (List Diagnostic),
      Report.SortsOnce parts.flatten (.merge (parts.map .ofDiagnostics))) ∧
    (∀ r s t : Report, Report.merge [.merge [r, s], t] = .merge [r, .merge [s, t]]) ∧
    (∀ r : Report, Report.merge [.empty, r] = r ∧ Report.merge [r, .empty] = r) ∧
    ∀ (config : LintConfig) (ops : List Op),
      let w := (Workspace.start config).run ops
      Report.SortsOnce (w.findings .c ++ w.findings .buildconf) w.combined := by
  refine ⟨fun parts => ?_, Report.merge_assoc,
    fun r => ⟨Report.merge_empty_left r, Report.merge_empty_right r⟩, fun config ops => ?_⟩
  · rw [Report.merge_map_ofDiagnostics]
    exact Report.sortsOnce_ofDiagnostics _
  · intro w
    have sorted : w.combined = _ := Workspace.combined_run config ops
    rw [sorted]
    exact Report.sortsOnce_ofDiagnostics _

end LiveLint
