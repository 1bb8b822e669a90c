import LiveLint.Diagnostic
import LiveLint.Text.Lines

/-!
# Markers

A marker is what an editor draws for a finding: one whole line underlined, with a message to show
on hover. A finding about no line draws nothing. A line beyond the text is drawn at the nearest
line there is. Columns count characters from 1, and the end column is one past the last.
-/

namespace LiveLint

/-- How an editor colours a marker. -/
inductive MarkerColor
  | error
  | warning
  /-- A suggestion. -/
  | info
deriving DecidableEq, Repr

/-- The word for a marker's colour. -/
def MarkerColor.name : MarkerColor → String
  | error => "error"
  | warning => "warning"
  | info => "info"

/-- The colour of a severity. -/
def Severity.color : Severity → MarkerColor
  | error => .error
  | warning => .warning
  | suggestion => .info

/-- A note drawn at a place of a text. -/
structure Marker where
  line : Nat
  column : Nat
  endColumn : Nat
  color : MarkerColor
  message : String
  code : Option String
deriving DecidableEq, Repr

namespace Marker

open Text (LineTable)

/-- The marker of a finding, if it is about a line. -/
def ofDiagnostic? (table : LineTable) (d : Diagnostic) : Option Marker :=
  d.line.map fun wanted =>
    let line := table.nearestLine wanted
    { line, column := 1, endColumn := table.lineLength line + 1,
      color := d.severity.color, message := d.message, code := d.code }

/-- The markers of findings about one text, in their order. -/
def ofDiagnostics (table : LineTable) (ds : List Diagnostic) : List Marker :=
  ds.filterMap (ofDiagnostic? table)

theorem ofDiagnostic?_eq_none_iff {table : LineTable} {d : Diagnostic} :
    ofDiagnostic? table d = none ↔ d.line = none := by
  simp [ofDiagnostic?]

end Marker

end LiveLint
