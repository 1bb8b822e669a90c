import LiveLint.CSource.Declaration
import LiveLint.CSource.Finding
import LiveLint.CSource.Phrase
import LiveLint.CSource.Statement

/-!
# Checking C sources

The checks are scans of the whole text, each on its own, with no parser behind them: braces are
counted in literals and comments too, a statement over several lines looks unfinished on each, and
a variable is known by its spelling alone. What they find comes in the order of the catalogue, the
two line checks interleaved.

Any text has findings, if only none; no check depends on what another found.
-/

namespace LiveLint.CSource

/-- The finding, if the condition holds. -/
def reportIf (condition : Bool) (f : Finding) : List Finding :=
  if condition then [f] else []

/-! ## Phrases that the checks look for -/

namespace Phrase

/-- A definition of `main` with a result type. -/
def mainOf (type : String) : Phrase :=
  ofWord type [.space, .text "main", .gap, .text "("]

/-- `int main(void)`. -/
def mainOfNothing : Phrase :=
  ofWord "int" [.space, .text "main", .gap, .text "(", .gap, .text "void", .gap, .text ")"]

/-- A call of `printf` whose text holds a line break. -/
def printedLineBreak : Phrase :=
  ofWord "printf" [.gap, .text "(", .gap, .quoted "\\n"]

/-- A return of zero. -/
def zeroReturn : Phrase :=
  ofWord "return" [.space, .text "0", .gap, .text ";"]

/-- A call of `scanf` as a condition. -/
def guardedScanf : Phrase :=
  anywhere [.text "if", .gap, .text "(", .gap, .text "scanf", .gap, .text "("]

/-- A flush of the standard output. -/
def flushOfOutput : Phrase :=
  anywhere [.text "fflush", .gap, .text "(", .gap, .text "stdout", .gap, .text ")"]

/-- A call of `printf` that prints a string argument. -/
def printedString : Phrase :=
  anywhere [.text "printf", .gap, .text "(", .gap, .quoted "%s", .gap, .text ",", .gap,
    .through ')']

/-- A declaration of an array of characters. -/
def arrayOfChars : Phrase :=
  anywhere [.text "char", .space, .word, .gap, .text "["]

end Phrase

/-- Whether the function is called. -/
def calls (cs : List Char) (name : String) : Bool :=
  (Phrase.call name).standsIn cs

/-- Whether the header is included. -/
def includesHeader (cs : List Char) (header : String) : Bool :=
  (Phrase.includes header).standsIn cs

/-- Whether `main` is defined. -/
def definesMain (cs : List Char) : Bool :=
  (Phrase.mainOf "int").standsIn cs || (Phrase.mainOf "void").standsIn cs

/-- The line of the first call of a function. -/
def firstCallLine (cs : List Char) (name : String) : Option Nat :=
  ((Phrase.call name).find? cs).map (Text.lineAt cs)

/-! ## The checks -/

/-- The shape of the file: its `main`, its emptiness, its braces. -/
def shapeFindings (cs : List Char) : List Finding :=
  reportIf (!definesMain cs) .noMain ++
  reportIf (calls cs "main" && !(Phrase.mainOf "int").standsIn cs) .oddMainType ++
  reportIf (Text.isAllBlank cs) .emptySource ++
  reportIf (cs.count '{' != cs.count '}') .unbalanced

/-- Functions that are called without their header. -/
def includeFindings (cs : List Char) : List Finding :=
  let stdio := includesHeader cs "stdio.h"
  reportIf ((calls cs "printf" || calls cs "scanf") && !stdio) .noStdio ++
  reportIf (calls cs "puts" && !stdio) .noStdioForPuts ++
  reportIf ((calls cs "malloc" || calls cs "free") && !includesHeader cs "stdlib.h")
    .noStdlib ++
  reportIf ((calls cs "strlen" || calls cs "strcpy") && !includesHeader cs "string.h")
    .noStringHeader

/-- Variables that are never used. -/
def variableFindings (cs : List Char) : List Finding :=
  (unusedVariables cs).map fun d => .unusedVariable d.name (Text.lineAt cs d.position)

/-- Whether a trimmed line holds code: it is not empty, no comment, no directive. -/
def isCodeLine (trimmed : List Char) : Bool :=
  !(trimmed.isEmpty || ['/', '/'].isPrefixOf trimmed || ['#'].isPrefixOf trimmed)

/-- Tabs and missing semicolons on one line. -/
def lineFindings (number : Nat) (line : List Char) : List Finding :=
  let trimmed := Text.trim line
  if isCodeLine trimmed then
    reportIf (line.contains '\t') (.tab number) ++
    reportIf (!isFinished trimmed || hasRunOnStatement trimmed) (.noSemicolon number)
  else []

/-- Tabs and missing semicolons, line by line. -/
def layoutFindings (cs : List Char) : List Finding :=
  ((Text.splitLines cs).zipIdx 1).flatMap fun (line, number) => lineFindings number line

/-- How functions of the library are used. -/
def callFindings (cs : List Char) : List Finding :=
  let printf := calls cs "printf"
  reportIf (printf && !Phrase.printedLineBreak.standsIn cs)
    (.unendedOutput (firstCallLine cs "printf")) ++
  reportIf (calls cs "malloc" && !calls cs "free") .neverFreed ++
  reportIf (definesMain cs && !Phrase.zeroReturn.standsIn cs) .noReturnZero ++
  reportIf (calls cs "gets") .unsafeGets ++
  reportIf (calls cs "scanf" && !Phrase.guardedScanf.standsIn cs) .unguardedScanf ++
  reportIf (calls cs "strcpy") .unsafeStrcpy ++
  reportIf (Phrase.mainOfNothing.standsIn cs && printf && !Phrase.flushOfOutput.standsIn cs)
    (.unflushedOutput (firstCallLine cs "printf")) ++
  reportIf (Phrase.printedString.standsIn cs && !Phrase.arrayOfChars.standsIn cs) .unboundedString

/-- Everything found in a C source, in the order of the catalogue. -/
def findings (cs : List Char) : List Finding :=
  shapeFindings cs ++ includeFindings cs ++ variableFindings cs ++ layoutFindings cs ++
  callFindings cs

/-- The diagnostics of a C source, in the order of the catalogue. -/
def analyze (source : String) : List Diagnostic :=
  (findings source.toList).map Finding.diagnostic

theorem mem_reportIf {b : Bool} {f g : Finding} : g ∈ reportIf b f ↔ b = true ∧ g = f := by
  cases b <;> simp [reportIf]

end LiveLint.CSource
