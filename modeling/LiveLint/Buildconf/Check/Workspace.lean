import LiveLint.Buildconf.Document
import LiveLint.Buildconf.Finding

/-!
# The workspace

A document has one workspace, which sets a name, a root, a target directory and a profile. The
root and the target directory have recommended values, and the profile is one that a block
declares. Every workspace is checked, also a second one.
-/

namespace LiveLint.Buildconf

/-- What a workspace has to set. -/
def requiredKeys : List String :=
  ["name", "root", "target_dir", "profile"]

/-- The settings of a block. -/
def Block.settings (b : Block) : List Directive :=
  b.directivesOf "set"

/-- The profiles that blocks declare. -/
def declaredProfiles (doc : Document) : List String :=
  (doc.named "profile").map (·.1)

/-- One workspace and no more. -/
def workspaceCountFindings (workspaces : List Block) : List Finding :=
  match workspaces with
  | [] => [.noWorkspace]
  | [_] => []
  | _ :: second :: _ => [.secondWorkspace second.line]

/-- The keys that a workspace does not set. -/
def unsetKeys (workspace : Block) : List Finding :=
  requiredKeys.flatMap fun key =>
    reportIf (!workspace.settings.any (·.hasKeyword 0 key)) (.unsetKey key workspace.line)

/-- The value of one setting. -/
def settingFindings (profiles : List String) (set : Directive) : List Finding :=
  match set.arg? 1 with
  | none => []
  | some value =>
    if set.hasKeyword 0 "root" then
      reportIf (value != ".") (.unusualRoot set.line)
    else if set.hasKeyword 0 "target_dir" then
      reportIf (value != "target") (.unusualTargetDir set.line) ++
      reportIf (['/'].isPrefixOf value.toList) (.absoluteTargetDir set.line)
    else
      reportIf (set.hasKeyword 0 "profile" && !profiles.contains value)
        (.unknownProfile value set.line)

/-- The workspace. -/
def workspaceFindings (doc : Document) : List Finding :=
  let workspaces := doc.blocksOf "workspace"
  let profiles := declaredProfiles doc
  workspaceCountFindings workspaces ++
  workspaces.flatMap fun workspace =>
    unsetKeys workspace ++ workspace.settings.flatMap (settingFindings profiles)

end LiveLint.Buildconf
