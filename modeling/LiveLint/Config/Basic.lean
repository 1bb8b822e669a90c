import LiveLint.Diagnostic
import LiveLint.Text.Quoted

/-!
# Lint configurations

What the owner of a project decides about the rules: which codes are never reported, which have
another severity than the catalogue gives them, and which kinds of source are checked at all.
Analyzers know nothing of it; it is applied to what they found.

Codes are kept in order and each once, so two configurations that decide the same are equal.
-/

namespace LiveLint

/-- Decisions about rules. -/
structure LintConfig where
  /-- The codes that are never reported, in order. -/
  disabled : List String
  /-- The codes with a severity of their own, in order. -/
  severity : List (String × Severity)
  /-- Whether C sources are checked. -/
  c : Bool
  /-- Whether build configurations are checked. -/
  buildconf : Bool
deriving DecidableEq, Repr

namespace LintConfig

/-- Everything is checked and nothing changed. -/
def default : LintConfig := ⟨[], [], true, true⟩

/-- Put a code into an ordered list, if it is not there. -/
def insertCode (code : String) : List String → List String
  | [] => [code]
  | x :: xs =>
    if code < x then code :: x :: xs
    else if code = x then x :: xs
    else x :: insertCode code xs

/-- Put a decision into an ordered list, in place of an earlier one on the same code. -/
def insertSeverity (code : String) (s : Severity) :
    List (String × Severity) → List (String × Severity)
  | [] => [(code, s)]
  | (x, t) :: xs =>
    if code < x then (code, s) :: (x, t) :: xs
    else if code = x then (code, s) :: xs
    else (x, t) :: insertSeverity code s xs

/-- The configuration with one more code switched off. -/
def disable (config : LintConfig) (code : String) : LintConfig :=
  { config with disabled := insertCode code config.disabled }

/-- The configuration with a severity for a code. -/
def regrade (config : LintConfig) (code : String) (s : Severity) : LintConfig :=
  { config with severity := insertSeverity code s config.severity }

/-- Whether a kind of source is checked. -/
def checksKind (config : LintConfig) : SourceKind → Bool
  | .c => config.c
  | .buildconf => config.buildconf

/-- Whether findings of a code are reported. -/
def allowsCode (config : LintConfig) (code : String) : Bool :=
  code ∉ config.disabled

/-- Whether a finding is reported; one without a code always is. -/
def keeps (config : LintConfig) (d : Diagnostic) : Bool :=
  d.code.all config.allowsCode

/-- The severity that a finding gets. -/
def severityOf (config : LintConfig) (d : Diagnostic) : Severity :=
  (d.code.bind fun code => config.severity.lookup code).getD d.severity

/-- A finding with the severity it gets. -/
def adjust (config : LintConfig) (d : Diagnostic) : Diagnostic :=
  { d with severity := config.severityOf d }

/-- The findings that are reported, in their order, with the severities they get. -/
def apply (config : LintConfig) (ds : List Diagnostic) : List Diagnostic :=
  (ds.filter config.keeps).map config.adjust

@[simp] theorem adjust_code (config : LintConfig) (d : Diagnostic) :
    (config.adjust d).code = d.code := rfl

@[simp] theorem adjust_line (config : LintConfig) (d : Diagnostic) :
    (config.adjust d).line = d.line := rfl

@[simp] theorem adjust_message (config : LintConfig) (d : Diagnostic) :
    (config.adjust d).message = d.message := rfl

theorem apply_append (config : LintConfig) (ds es : List Diagnostic) :
    config.apply (ds ++ es) = config.apply ds ++ config.apply es := by
  simp [apply]

/-- The inspection text of a severity. -/
def inspectSeverity : Severity → String
  | .error => "Error"
  | .warning => "Warning"
  | .suggestion => "Suggestion"

/-- Parts in braces, or bare braces for none. -/
def inBraces (parts : List String) : String :=
  "\x7b" ++ String.intercalate ", " parts ++ "\x7d"

/-- The inspection text of a truth value. -/
def inspectBool (b : Bool) : String :=
  if b then "true" else "false"

/-- The whole configuration on one line, for a log or a debugger. -/
def inspect (config : LintConfig) : String :=
  let disabled := inBraces (config.disabled.map Text.quote)
  let severity := inBraces
    (config.severity.map fun (code, s) => Text.quote code ++ ": " ++ inspectSeverity s)
  "LintConfig \x7b disabled: " ++ disabled ++ ", severity: " ++ severity ++
    ", c: " ++ inspectBool config.c ++ ", buildconf: " ++ inspectBool config.buildconf ++ " \x7d"

end LintConfig

end LiveLint
