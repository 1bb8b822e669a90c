import LiveLint.CSource.Rule
import LiveLint.Diagnostic

/-!
# Findings in C sources

What the checks can find, with what each needs to tell it: a name, a line. The wording of all
messages is in `Finding.message`, the anchor of each finding in `Finding.line`, and both meet in
`Finding.diagnostic`.
-/

namespace LiveLint.CSource

/-- Something found in a C source. -/
inductive Finding
  | noMain
  | oddMainType
  | emptySource
  | unbalanced
  | noStdio
  | noStdioForPuts
  | noStdlib
  | noStringHeader
  /-- A variable that is declared and never named again. -/
  | unusedVariable (name : String) (line : Nat)
  | tab (line : Nat)
  | noSemicolon (line : Nat)
  /-- No text printed ends a line; told at the first call of `printf`. -/
  | unendedOutput (line : Option Nat)
  | neverFreed
  | noReturnZero
  | unsafeGets
  | unguardedScanf
  | unsafeStrcpy
  /-- Output may stay in a buffer; told at the first call of `printf`. -/
  | unflushedOutput (line : Option Nat)
  | unboundedString
deriving DecidableEq, Repr

namespace Finding

/-- The rule that makes the finding. -/
def rule : Finding → Rule
  | noMain => .noMain
  | oddMainType => .oddMainType
  | emptySource => .emptySource
  | unbalanced => .unbalanced
  | noStdio => .noStdio
  | noStdioForPuts => .noStdioForPuts
  | noStdlib => .noStdlib
  | noStringHeader => .noStringHeader
  | unusedVariable .. => .unusedVariable
  | tab _ => .tab
  | noSemicolon _ => .noSemicolon
  | unendedOutput _ => .unendedOutput
  | neverFreed => .neverFreed
  | noReturnZero => .noReturnZero
  | unsafeGets => .unsafeGets
  | unguardedScanf => .unguardedScanf
  | unsafeStrcpy => .unsafeStrcpy
  | unflushedOutput _ => .unflushedOutput
  | unboundedString => .unboundedString

/-- What to tell the author. -/
def message : Finding → String
  | noMain => "C: missing main function."
  | oddMainType => "C: main should return int."
  | emptySource => "C: empty file."
  | unbalanced => "C: unbalanced braces."
  | noStdio => "C: add #include <stdio.h>."
  | noStdioForPuts => "C: add #include <stdio.h> for puts()."
  | noStdlib => "C: add #include <stdlib.h>."
  | noStringHeader => "C: add #include <string.h>."
  | unusedVariable name _ => "C: unused variable \"" ++ name ++ "\"."
  | tab line => "C: tab character on line " ++ toString line ++ "."
  | noSemicolon line => "C: missing semicolon on line " ++ toString line ++ "."
  | unendedOutput _ => "C: end printf output with \\n."
  | neverFreed => "C: malloc without free (memory leak)."
  | noReturnZero => "C: add \"return 0;\" at the end of main."
  | unsafeGets => "C: gets() is unsafe, use fgets()."
  | unguardedScanf => "C: check the return value of scanf()."
  | unsafeStrcpy => "C: strcpy() -> prefer strncpy() or memcpy()."
  | unflushedOutput _ => "C: add fflush(stdout) if output must appear immediately."
  | unboundedString => "C: check buffer for %s (size + terminator)."

/-- The line it is about, if it is not about the whole source. -/
def line : Finding → Option Nat
  | unusedVariable _ line => some line
  | tab line => some line
  | noSemicolon line => some line
  | unendedOutput line => line
  | unflushedOutput line => line
  | _ => none

/-- The finding as a diagnostic of its rule. -/
def diagnostic (f : Finding) : Diagnostic :=
  (Diagnostic.ofRule f.rule.severity f.rule.code f.message).atLine? f.line

@[simp] theorem diagnostic_code (f : Finding) : f.diagnostic.code = some f.rule.code := rfl

@[simp] theorem diagnostic_message (f : Finding) : f.diagnostic.message = f.message := rfl

@[simp] theorem diagnostic_severity (f : Finding) : f.diagnostic.severity = f.rule.severity := rfl

end Finding

end LiveLint.CSource
