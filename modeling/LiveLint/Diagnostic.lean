import LiveLint.Wording

/-!
# Diagnostics

One finding about a text: how grave it is, which rule found it, what to tell the author, and the
line it is about. A finding about the text as a whole has no line, and line zero is no line.

Findings are shown by line, those without a line last. `sortKey` gives the latter the greatest
number that a 64-bit line counter can hold.
-/

namespace LiveLint

/-- One finding. -/
structure Diagnostic where
  severity : Severity
  /-- The code of the rule, if a rule found it. -/
  code : Option String
  message : String
  /-- The line it is about, counted from 1. -/
  line : Option Nat
deriving DecidableEq, Repr

namespace Diagnostic

/-- A finding of a rule, about no line yet. -/
def ofRule (severity : Severity) (code message : String) : Diagnostic :=
  ⟨severity, some code, message, none⟩

/-- A finding of no rule, graded by its words. -/
def graded (message : String) : Diagnostic :=
  ⟨Wording.grade message, none, message, none⟩

/-- The same finding about a line; zero is no line. -/
def atLine? (d : Diagnostic) (line : Option Nat) : Diagnostic :=
  { d with line := line.filter (0 < ·) }

/-- The same finding about a line; zero is no line. -/
def atLine (d : Diagnostic) (line : Nat) : Diagnostic :=
  d.atLine? (some line)

/-- The greatest line number, which stands for no line when findings are sorted. -/
def lastSortKey : Nat := 18446744073709551615

/-- Where a finding sorts. -/
def sortKey (d : Diagnostic) : Nat :=
  d.line.getD lastSortKey

/-- The issue-list text: `LINE:SEVERITY: MESSAGE`, or without the line. -/
def display (d : Diagnostic) : String :=
  match d.line with
  | some line => toString line ++ ":" ++ d.severity.name ++ ": " ++ d.message
  | none => d.severity.name ++ ": " ++ d.message

@[simp] theorem atLine_zero (d : Diagnostic) : (d.atLine 0).line = none := rfl

@[simp] theorem atLine_succ (d : Diagnostic) (n : Nat) :
    (d.atLine (n + 1)).line = some (n + 1) := by
  simp [atLine, atLine?, Option.filter]

@[simp] theorem atLine?_none (d : Diagnostic) : (d.atLine? none).line = none := rfl

@[simp] theorem atLine?_message (d : Diagnostic) (l : Option Nat) :
    (d.atLine? l).message = d.message := rfl

@[simp] theorem atLine?_severity (d : Diagnostic) (l : Option Nat) :
    (d.atLine? l).severity = d.severity := rfl

@[simp] theorem atLine?_code (d : Diagnostic) (l : Option Nat) :
    (d.atLine? l).code = d.code := rfl

end Diagnostic

end LiveLint
