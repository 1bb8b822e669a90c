import LiveLint.Diagnostic

/-!
# Reports

A report is the outcome of one pass over a text: its findings in the order of their sort keys,
ties in the order they were found. The order is a field of the type, so a report cannot be out of
order; `Report.ofDiagnostics` sorts and `Report.merge` sorts the union.
-/

namespace LiveLint

/-- Whether the first finding may stand before the second. -/
def Diagnostic.notAfter (d e : Diagnostic) : Bool :=
  d.sortKey ≤ e.sortKey

theorem Diagnostic.notAfter_trans (a b c : Diagnostic) (h : a.notAfter b = true)
    (h' : b.notAfter c = true) : a.notAfter c = true := by
  simp only [notAfter, decide_eq_true_eq] at *
  omega

theorem Diagnostic.notAfter_total (a b : Diagnostic) :
    (a.notAfter b || b.notAfter a) = true := by
  simp only [notAfter, Bool.or_eq_true, decide_eq_true_eq]
  omega

/-- The sorted findings of one pass. -/
structure Report where
  diagnostics : List Diagnostic
  sorted : diagnostics.Pairwise (fun d e => d.notAfter e = true)

namespace Report

theorem ext {r s : Report} (h : r.diagnostics = s.diagnostics) : r = s := by
  cases r; cases s; simp_all

/-- The report that found nothing. -/
def empty : Report := ⟨[], .nil⟩

/-- Sort findings into a report; the sort keeps the order of ties. -/
def ofDiagnostics (ds : List Diagnostic) : Report :=
  ⟨ds.mergeSort Diagnostic.notAfter,
   List.pairwise_mergeSort Diagnostic.notAfter_trans Diagnostic.notAfter_total ds⟩

/-- One report of the findings of several, ties in the order the reports are given. -/
def merge (reports : List Report) : Report :=
  ofDiagnostics (reports.flatMap diagnostics)

/-- How many findings there are. -/
def size (r : Report) : Nat :=
  r.diagnostics.length

/-- Whether nothing was found. -/
def isEmpty (r : Report) : Bool :=
  r.diagnostics.isEmpty

/-- How many findings have the given severity. -/
def count (r : Report) (severity : Severity) : Nat :=
  r.diagnostics.countP (·.severity == severity)

/-- Whether an error was found. -/
def hasErrors (r : Report) : Bool :=
  0 < r.count .error

theorem ofDiagnostics_perm (ds : List Diagnostic) : (ofDiagnostics ds).diagnostics.Perm ds :=
  List.mergeSort_perm ds Diagnostic.notAfter

/-- Sorting what is sorted changes nothing. -/
theorem ofDiagnostics_diagnostics (r : Report) : ofDiagnostics r.diagnostics = r :=
  ext (List.mergeSort_of_pairwise r.sorted)

end Report

end LiveLint
