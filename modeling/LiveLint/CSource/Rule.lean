import LiveLint.Severity

/-!
# Rules for C sources

The catalogue of checks, in the order they are made. A rule has a code that never changes, by
which it is switched off or regraded, and a severity.
-/

namespace LiveLint.CSource

/-- A check of C sources. -/
inductive Rule
  | noMain
  | oddMainType
  | emptySource
  | unbalanced
  | noStdio
  | noStdioForPuts
  | noStdlib
  | noStringHeader
  | unusedVariable
  | tab
  | noSemicolon
  | unendedOutput
  | neverFreed
  | noReturnZero
  | unsafeGets
  | unguardedScanf
  | unsafeStrcpy
  | unflushedOutput
  | unboundedString
deriving DecidableEq, Repr

namespace Rule

/-- The catalogue. -/
def all : List Rule :=
  [noMain, oddMainType, emptySource, unbalanced, noStdio, noStdioForPuts, noStdlib,
   noStringHeader, unusedVariable, tab, noSemicolon, unendedOutput, neverFreed, noReturnZero,
   unsafeGets, unguardedScanf, unsafeStrcpy, unflushedOutput, unboundedString]

/-- The code of a rule. -/
def code : Rule → String
  | noMain => "C001"
  | oddMainType => "C002"
  | emptySource => "C003"
  | unbalanced => "C004"
  | noStdio => "C005"
  | noStdioForPuts => "C006"
  | noStdlib => "C007"
  | noStringHeader => "C008"
  | unusedVariable => "C009"
  | tab => "C010"
  | noSemicolon => "C011"
  | unendedOutput => "C012"
  | neverFreed => "C013"
  | noReturnZero => "C014"
  | unsafeGets => "C015"
  | unguardedScanf => "C016"
  | unsafeStrcpy => "C017"
  | unflushedOutput => "C018"
  | unboundedString => "C019"

/-- The severity of what a rule finds: three shapes of a broken file are errors. -/
def severity : Rule → Severity
  | noMain | emptySource | unbalanced => .error
  | _ => .warning

theorem mem_all (r : Rule) : r ∈ all := by
  cases r <;> decide

/-- Codes tell rules apart. -/
theorem code_injective {r s : Rule} (h : r.code = s.code) : r = s := by
  have distinct : ∀ r ∈ all, ∀ s ∈ all, r.code = s.code → r = s := by decide +kernel
  exact distinct r (mem_all r) s (mem_all s) h

end Rule

end LiveLint.CSource
