import LiveLint.Severity

/-!
# Rules for build configurations

The catalogue of checks in the order of their codes. A code never changes: a configuration switches
rules off and regrades them by it.
-/

namespace LiveLint.Buildconf

/-- A check of build configurations. -/
inductive Rule
  | misplacedHeader
  | noHeader
  | noValidHeader
  | repeatedHeader
  | noWorkspace
  | secondWorkspace
  | unsetKey
  | unusualRoot
  | unusualTargetDir
  | absoluteTargetDir
  | unknownProfile
  | noTool
  | noBake
  | noRun
  | noCommand
  | repeatedTool
  | repeatedBake
  | idleTool
  | unknownTool
  | bakeLacksSource
  | bakeLacksRun
  | bakeLacksOutput
  | manyOutputs
  | oddBakeDirective
  | oddBakeName
  | repeatedSource
  | strayOutput
  | outputLacksExtension
  | blankInOutput
  | repeatedOutput
  | toolLacksCommand
  | misnamedTool
  | oddToolDirective
  | emptyCommand
  | spacedCommand
  | relativeCommand
  | runLacksFiles
  | runLacksResult
  | runLacksFlags
  | oddRunDirective
  | looseRun
  | unusedBake
  | nothingExported
  | unknownRef
  | unknownNeed
  | unknownSourceKind
  | emptySource
  | bareSource
  | unknownInput
  | oddInputFlag
  | unknownOutput
  | oddOutputFlag
  | outputsNotEmitted
  | tab
  | unknownTag
  | unbalanced
deriving DecidableEq, Repr

namespace Rule

/-- The catalogue. -/
def all : List Rule :=
  [misplacedHeader, noHeader, noValidHeader, repeatedHeader, noWorkspace, secondWorkspace,
   unsetKey, unusualRoot, unusualTargetDir, absoluteTargetDir, unknownProfile, noTool, noBake,
   noRun, noCommand, repeatedTool, repeatedBake, idleTool, unknownTool, bakeLacksSource,
   bakeLacksRun, bakeLacksOutput, manyOutputs, oddBakeDirective, oddBakeName, repeatedSource,
   strayOutput, outputLacksExtension, blankInOutput, repeatedOutput, toolLacksCommand,
   misnamedTool, oddToolDirective, emptyCommand, spacedCommand, relativeCommand, runLacksFiles,
   runLacksResult, runLacksFlags, oddRunDirective, looseRun, unusedBake, nothingExported,
   unknownRef, unknownNeed, unknownSourceKind, emptySource, bareSource, unknownInput,
   oddInputFlag, unknownOutput, oddOutputFlag, outputsNotEmitted, tab, unknownTag, unbalanced]

/-- The code of a rule. -/
def code : Rule → String
  | misplacedHeader => "B001"
  | noHeader => "B002"
  | noValidHeader => "B003"
  | repeatedHeader => "B004"
  | noWorkspace => "B010"
  | secondWorkspace => "B011"
  | unsetKey => "B012"
  | unusualRoot => "B013"
  | unusualTargetDir => "B014"
  | absoluteTargetDir => "B015"
  | unknownProfile => "B016"
  | noTool => "B020"
  | noBake => "B021"
  | noRun => "B022"
  | noCommand => "B023"
  | repeatedTool => "B024"
  | repeatedBake => "B025"
  | idleTool => "B026"
  | unknownTool => "B027"
  | bakeLacksSource => "B030"
  | bakeLacksRun => "B031"
  | bakeLacksOutput => "B032"
  | manyOutputs => "B033"
  | oddBakeDirective => "B034"
  | oddBakeName => "B035"
  | repeatedSource => "B036"
  | strayOutput => "B040"
  | outputLacksExtension => "B041"
  | blankInOutput => "B042"
  | repeatedOutput => "B043"
  | toolLacksCommand => "B050"
  | misnamedTool => "B051"
  | oddToolDirective => "B052"
  | emptyCommand => "B053"
  | spacedCommand => "B054"
  | relativeCommand => "B055"
  | runLacksFiles => "B060"
  | runLacksResult => "B061"
  | runLacksFlags => "B062"
  | oddRunDirective => "B063"
  | looseRun => "B064"
  | unusedBake => "B070"
  | nothingExported => "B071"
  | unknownRef => "B072"
  | unknownNeed => "B073"
  | unknownSourceKind => "B080"
  | emptySource => "B081"
  | bareSource => "B082"
  | unknownInput => "B083"
  | oddInputFlag => "B084"
  | unknownOutput => "B085"
  | oddOutputFlag => "B086"
  | outputsNotEmitted => "B087"
  | tab => "B090"
  | unknownTag => "B091"
  | unbalanced => "B092"

/-- The severity of what a rule finds. -/
def severity : Rule → Severity
  | unusualRoot | unusualTargetDir | manyOutputs | oddBakeName | spacedCommand
  | relativeCommand => .suggestion
  | repeatedHeader | oddBakeDirective | repeatedSource | blankInOutput
  | repeatedOutput | emptyCommand | unusedBake | nothingExported | unknownRef | unknownNeed
  | unknownSourceKind | emptySource | bareSource | unknownInput
  | oddInputFlag | unknownOutput | oddOutputFlag | outputsNotEmitted | unknownTag
  | unbalanced => .warning
  | _ => .error

theorem mem_all (r : Rule) : r ∈ all := by
  cases r <;> decide

/-- Codes tell rules apart. -/
theorem code_injective {r s : Rule} (h : r.code = s.code) : r = s := by
  have distinct : ∀ r ∈ all, ∀ s ∈ all, r.code = s.code → r = s := by decide +kernel
  exact distinct r (mem_all r) s (mem_all s) h

end Rule

end LiveLint.Buildconf
