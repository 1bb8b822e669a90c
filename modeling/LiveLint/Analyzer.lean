import LiveLint.Buildconf.Check
import LiveLint.Config.Basic
import LiveLint.CSource.Check
import LiveLint.Report

/-!
# Analyzers

An analyzer knows one kind of source and gives the diagnostics of a text, always the same for the
same text. The two built-in analyzers run the catalogues of checks; a host may put another in
place of either.
-/

namespace LiveLint

/-- A pure check of texts of one kind. -/
structure Analyzer where
  kind : SourceKind
  analyze : String → List Diagnostic

namespace Analyzer

/-- The analyzer of a kind that runs the catalogue of checks. -/
def builtIn : SourceKind → Analyzer
  | .c => ⟨.c, CSource.analyze⟩
  | .buildconf => ⟨.buildconf, Buildconf.analyze⟩

/-- The finding of a word on a line, if the line has it. -/
def wordOn? (kind : SourceKind) (word : String) (line : List Char) (number : Nat) :
    Option Diagnostic :=
  if Text.occurs word.toList line then
    some ((Diagnostic.graded (kind.messageTag ++ " " ++ word)).atLine number)
  else none

/-- An analyzer that finds a word, once on every line that has it. -/
def wordSearch (kind : SourceKind) (word : String) : Analyzer :=
  ⟨kind, fun text =>
    ((Text.splitLines text.toList).zipIdx 1).filterMap fun (line, number) =>
      wordOn? kind word line number⟩

@[simp] theorem kind_builtIn (kind : SourceKind) : (builtIn kind).kind = kind := by
  cases kind <;> rfl

@[simp] theorem kind_wordSearch (kind : SourceKind) (word : String) :
    (wordSearch kind word).kind = kind := rfl

/-- The report on a text of a kind: what the analyzer finds, decided on and sorted; nothing if the
kind is switched off. -/
def report (analyzer : Analyzer) (config : LintConfig) (kind : SourceKind) (text : String) :
    Report :=
  if config.checksKind kind then .ofDiagnostics (config.apply (analyzer.analyze text)) else .empty

end Analyzer

end LiveLint
