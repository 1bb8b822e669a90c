/-!
# Severities

Three grades of a finding, the gravest first.
-/

namespace LiveLint

/-- How grave a finding is. -/
inductive Severity
  /-- The document is broken. -/
  | error
  /-- The document is suspicious. -/
  | warning
  /-- The document works, but there is a recommended form. -/
  | suggestion
deriving DecidableEq, Repr

namespace Severity

/-- The word shown for a severity. -/
def name : Severity → String
  | error => "error"
  | warning => "warning"
  | suggestion => "suggestion"

/-- All severities, the gravest first. -/
def all : List Severity := [.error, .warning, .suggestion]

/-- The severity a word stands for. -/
def ofName? (text : String) : Option Severity :=
  all.find? (·.name == text)

/-- The place of a severity in `all`. -/
def rank : Severity → Nat
  | error => 0
  | warning => 1
  | suggestion => 2

/-- Whether the first is at least as grave as the second. -/
def atLeast (s t : Severity) : Bool :=
  s.rank ≤ t.rank

theorem ofName?_name (s : Severity) : ofName? s.name = some s := by
  cases s <;> decide

end Severity

end LiveLint
