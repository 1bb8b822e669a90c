import LiveLint.Buildconf.Rule
import LiveLint.Diagnostic

/-!
# Findings in build configurations

What the checks can find, with the names, texts and lines that each needs to tell it. As for C
sources, the wording of all messages is in `Finding.message`, the anchor in `Finding.line`, and
both meet in `Finding.diagnostic`.
-/

namespace LiveLint.Buildconf

/-- Something found in a build configuration. -/
inductive Finding
  | misplacedHeader (line : Nat)
  | noHeader
  | noValidHeader
  | repeatedHeader (line : Nat)
  | noWorkspace
  | secondWorkspace (line : Nat)
  | unsetKey (key : String) (line : Nat)
  | unusualRoot (line : Nat)
  | unusualTargetDir (line : Nat)
  | absoluteTargetDir (line : Nat)
  | unknownProfile (profile : String) (line : Nat)
  | noTool
  | noBake
  | noRun
  | noCommand
  | repeatedTool (name : String) (line : Nat)
  | repeatedBake (name : String) (line : Nat)
  | idleTool (name : String) (line : Nat)
  | unknownTool (name : String) (line : Nat)
  | bakeLacksSource (bake : String) (line : Nat)
  | bakeLacksRun (bake : String) (line : Nat)
  | bakeLacksOutput (bake : String) (line : Nat)
  | manyOutputs (bake : String) (line : Nat)
  | oddBakeDirective (bake directive : String) (line : Nat)
  | oddBakeName (bake : String) (line : Nat)
  | repeatedSource (bake id : String) (line : Nat)
  | strayOutput (path : String) (line : Nat)
  | outputLacksExtension (path : String) (line : Nat)
  | blankInOutput (path : String) (line : Nat)
  | repeatedOutput (path : String) (line : Nat)
  | toolLacksCommand (tool : String) (line : Nat)
  | misnamedTool (tool binary : String) (line : Nat)
  | oddToolDirective (tool directive : String) (line : Nat)
  | emptyCommand (line : Nat)
  | spacedCommand (command : String) (line : Nat)
  | relativeCommand (command : String) (line : Nat)
  | runLacksFiles (tool : String) (line : Nat)
  | runLacksResult (tool : String) (line : Nat)
  | runLacksFlags (tool : String) (line : Nat)
  | oddRunDirective (tool directive : String) (line : Nat)
  | looseRun (tool : String) (line : Nat)
  | unusedBake (bake : String) (line : Nat)
  /-- Nothing is exported; told at the first header, if there is one. -/
  | nothingExported (line : Option Nat)
  | unknownRef (target : String) (line : Nat)
  | unknownNeed (target : String) (line : Nat)
  | unknownSourceKind (kind : String) (line : Nat)
  | emptySource (line : Nat)
  | bareSource (line : Nat)
  | unknownInput (id : String) (line : Nat)
  | oddInputFlag (flag : String) (line : Nat)
  | unknownOutput (output : String) (line : Nat)
  | oddOutputFlag (flag : String) (line : Nat)
  | outputsNotEmitted
  | tab (line : Nat)
  | unknownTag (tag : String) (line : Nat)
  | unbalanced
deriving DecidableEq, Repr

namespace Finding

/-- The rule that makes the finding. -/
def rule : Finding → Rule
  | misplacedHeader .. => .misplacedHeader
  | noHeader => .noHeader
  | noValidHeader => .noValidHeader
  | repeatedHeader .. => .repeatedHeader
  | noWorkspace => .noWorkspace
  | secondWorkspace .. => .secondWorkspace
  | unsetKey .. => .unsetKey
  | unusualRoot .. => .unusualRoot
  | unusualTargetDir .. => .unusualTargetDir
  | absoluteTargetDir .. => .absoluteTargetDir
  | unknownProfile .. => .unknownProfile
  | noTool => .noTool
  | noBake => .noBake
  | noRun => .noRun
  | noCommand => .noCommand
  | repeatedTool .. => .repeatedTool
  | repeatedBake .. => .repeatedBake
  | idleTool .. => .idleTool
  | unknownTool .. => .unknownTool
  | bakeLacksSource .. => .bakeLacksSource
  | bakeLacksRun .. => .bakeLacksRun
  | bakeLacksOutput .. => .bakeLacksOutput
  | manyOutputs .. => .manyOutputs
  | oddBakeDirective .. => .oddBakeDirective
  | oddBakeName .. => .oddBakeName
  | repeatedSource .. => .repeatedSource
  | strayOutput .. => .strayOutput
  | outputLacksExtension .. => .outputLacksExtension
  | blankInOutput .. => .blankInOutput
  | repeatedOutput .. => .repeatedOutput
  | toolLacksCommand .. => .toolLacksCommand
  | misnamedTool .. => .misnamedTool
  | oddToolDirective .. => .oddToolDirective
  | emptyCommand .. => .emptyCommand
  | spacedCommand .. => .spacedCommand
  | relativeCommand .. => .relativeCommand
  | runLacksFiles .. => .runLacksFiles
  | runLacksResult .. => .runLacksResult
  | runLacksFlags .. => .runLacksFlags
  | oddRunDirective .. => .oddRunDirective
  | looseRun .. => .looseRun
  | unusedBake .. => .unusedBake
  | nothingExported .. => .nothingExported
  | unknownRef .. => .unknownRef
  | unknownNeed .. => .unknownNeed
  | unknownSourceKind .. => .unknownSourceKind
  | emptySource .. => .emptySource
  | bareSource .. => .bareSource
  | unknownInput .. => .unknownInput
  | oddInputFlag .. => .oddInputFlag
  | unknownOutput .. => .unknownOutput
  | oddOutputFlag .. => .oddOutputFlag
  | outputsNotEmitted => .outputsNotEmitted
  | tab .. => .tab
  | unknownTag .. => .unknownTag
  | unbalanced => .unbalanced

/-- What to tell the author. -/
def message : Finding → String
  | misplacedHeader _ => "buildconf: !muf 4 must be the first meaningful line."
  | noHeader => "buildconf: missing !muf 4 header."
  | noValidHeader => "buildconf: invalid header line (expected !muf 4)."
  | repeatedHeader _ => "buildconf: duplicate !muf 4 header."
  | noWorkspace => "buildconf: missing [workspace] block."
  | secondWorkspace _ => "buildconf: multiple [workspace] blocks."
  | unsetKey key _ => "buildconf: workspace is missing .set " ++ key ++ "."
  | unusualRoot _ => "buildconf: .set root \".\" is recommended."
  | unusualTargetDir _ => "buildconf: .set target_dir \"target\" is recommended."
  | absoluteTargetDir _ => "buildconf: target_dir must be a relative path."
  | unknownProfile profile _ =>
    "buildconf: profile \"" ++ profile ++ "\" is not declared by any [profile] block."
  | noTool => "buildconf: missing [tool <name>] block."
  | noBake => "buildconf: missing [bake <name>] block."
  | noRun => "buildconf: missing [run <tool>] block."
  | noCommand => "buildconf: missing .exec in tool."
  | repeatedTool name _ => "buildconf: duplicate tool \"" ++ name ++ "\"."
  | repeatedBake name _ => "buildconf: duplicate bake \"" ++ name ++ "\"."
  | idleTool name _ => "buildconf: tool \"" ++ name ++ "\" is never used by a [run] block."
  | unknownTool name _ => "buildconf: run uses undeclared tool \"" ++ name ++ "\"."
  | bakeLacksSource bake _ => "buildconf: bake \"" ++ bake ++ "\" has no .make."
  | bakeLacksRun bake _ => "buildconf: bake \"" ++ bake ++ "\" has no [run <tool>] block."
  | bakeLacksOutput bake _ => "buildconf: bake \"" ++ bake ++ "\" has no .output."
  | manyOutputs bake _ =>
    "buildconf: bake \"" ++ bake ++ "\" declares several .output (one per bake is recommended)."
  | oddBakeDirective bake directive _ =>
    "buildconf: bake \"" ++ bake ++ "\" contains unknown directive ." ++ directive ++ "."
  | oddBakeName bake _ => "buildconf: bake \"" ++ bake ++ "\" should use snake_case."
  | repeatedSource bake id _ =>
    "buildconf: bake \"" ++ bake ++ "\" declares .make \"" ++ id ++ "\" more than once."
  | strayOutput path _ =>
    "buildconf: output \"" ++ path ++ "\" must live under target/out/."
  | outputLacksExtension path _ => "buildconf: output \"" ++ path ++ "\" has no file extension."
  | blankInOutput path _ => "buildconf: output \"" ++ path ++ "\" contains whitespace."
  | repeatedOutput path _ => "buildconf: duplicate output \"" ++ path ++ "\"."
  | toolLacksCommand tool _ => "buildconf: tool \"" ++ tool ++ "\" has no .exec."
  | misnamedTool tool binary _ =>
    "buildconf: tool \"" ++ tool ++ "\" should be named after its binary \"" ++ binary ++ "\"."
  | oddToolDirective tool directive _ =>
    "buildconf: tool \"" ++ tool ++ "\" contains unknown directive ." ++ directive ++ "."
  | emptyCommand _ => "buildconf: empty .exec."
  | spacedCommand command _ =>
    "buildconf: .exec \"" ++ command ++ "\" contains spaces (prefer a single binary)."
  | relativeCommand command _ =>
    "buildconf: .exec \"" ++ command ++ "\" is relative (prefer a binary on PATH)."
  | runLacksFiles tool _ => "buildconf: run \"" ++ tool ++ "\" has neither .takes nor .emits."
  | runLacksResult tool _ => "buildconf: run \"" ++ tool ++ "\" has .takes without .emits."
  | runLacksFlags tool _ => "buildconf: run \"" ++ tool ++ "\" has no .set (flags)."
  | oddRunDirective tool directive _ =>
    "buildconf: run \"" ++ tool ++ "\" contains unknown directive ." ++ directive ++ "."
  | looseRun tool _ =>
    "buildconf: run \"" ++ tool ++ "\" must be nested inside a [bake] block."
  | unusedBake bake _ =>
    "buildconf: bake \"" ++ bake ++ "\" is not referenced (export/needs)."
  | nothingExported _ => "buildconf: no exported recipe ([export] block)."
  | unknownRef target _ => "buildconf: .ref \"" ++ target ++ "\" does not match any bake."
  | unknownNeed target _ => "buildconf: .needs \"" ++ target ++ "\" does not match any bake."
  | unknownSourceKind kind _ => "buildconf: unknown .make kind \"" ++ kind ++ "\"."
  | emptySource _ => "buildconf: .make with empty pattern."
  | bareSource _ => "buildconf: .make patterns should be quoted."
  | unknownInput id _ => "buildconf: .takes \"" ++ id ++ "\" does not match any .make."
  | oddInputFlag flag _ =>
    "buildconf: .takes flag \"" ++ flag ++ "\" should start with \"-\" or be @args."
  | unknownOutput output _ => "buildconf: .emits \"" ++ output ++ "\" does not match any .output."
  | oddOutputFlag flag _ => "buildconf: .emits flag \"" ++ flag ++ "\" should start with \"-\"."
  | outputsNotEmitted => "buildconf: outputs declared without any .emits."
  | tab _ => "buildconf: tab characters are not allowed (use spaces)."
  | unknownTag tag _ => "buildconf: unknown block [" ++ tag ++ "]."
  | unbalanced => "buildconf: unbalanced blocks (missing ..)."

/-- The line it is about, if it is not about the whole document. -/
def line : Finding → Option Nat
  | misplacedHeader line => some line
  | repeatedHeader line => some line
  | secondWorkspace line => some line
  | unsetKey _ line => some line
  | unusualRoot line => some line
  | unusualTargetDir line => some line
  | absoluteTargetDir line => some line
  | unknownProfile _ line => some line
  | repeatedTool _ line => some line
  | repeatedBake _ line => some line
  | idleTool _ line => some line
  | unknownTool _ line => some line
  | bakeLacksSource _ line => some line
  | bakeLacksRun _ line => some line
  | bakeLacksOutput _ line => some line
  | manyOutputs _ line => some line
  | oddBakeDirective _ _ line => some line
  | oddBakeName _ line => some line
  | repeatedSource _ _ line => some line
  | strayOutput _ line => some line
  | outputLacksExtension _ line => some line
  | blankInOutput _ line => some line
  | repeatedOutput _ line => some line
  | toolLacksCommand _ line => some line
  | misnamedTool _ _ line => some line
  | oddToolDirective _ _ line => some line
  | emptyCommand line => some line
  | spacedCommand _ line => some line
  | relativeCommand _ line => some line
  | runLacksFiles _ line => some line
  | runLacksResult _ line => some line
  | runLacksFlags _ line => some line
  | oddRunDirective _ _ line => some line
  | looseRun _ line => some line
  | unusedBake _ line => some line
  | nothingExported line => line
  | unknownRef _ line => some line
  | unknownNeed _ line => some line
  | unknownSourceKind _ line => some line
  | emptySource line => some line
  | bareSource line => some line
  | unknownInput _ line => some line
  | oddInputFlag _ line => some line
  | unknownOutput _ line => some line
  | oddOutputFlag _ line => some line
  | tab line => some line
  | unknownTag _ line => some line
  | _ => none

/-- The finding as a diagnostic of its rule. -/
def diagnostic (f : Finding) : Diagnostic :=
  (Diagnostic.ofRule f.rule.severity f.rule.code f.message).atLine? f.line

@[simp] theorem diagnostic_code (f : Finding) : f.diagnostic.code = some f.rule.code := rfl

@[simp] theorem diagnostic_message (f : Finding) : f.diagnostic.message = f.message := rfl

@[simp] theorem diagnostic_severity (f : Finding) : f.diagnostic.severity = f.rule.severity := rfl

end Finding

/-- The finding, if the condition holds. -/
def reportIf (condition : Bool) (f : Finding) : List Finding :=
  if condition then [f] else []

theorem mem_reportIf {b : Bool} {f g : Finding} : g ∈ reportIf b f ↔ b = true ∧ g = f := by
  cases b <;> simp [reportIf]

end LiveLint.Buildconf
