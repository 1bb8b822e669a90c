import LiveLint.Workspace.Basic

/-!
# Looking into a workspace

The texts that a log and a debugger show: one line for an event, with its level and its fields in
order, and one line for a whole workspace.
-/

namespace LiveLint

/-- A field of an event. -/
def fieldText (key value : String) : String :=
  " " ++ key ++ "=" ++ value

/-- The log line of an event. -/
def Event.text : Event → String
  | pass kind version errors warnings suggestions =>
    "DEBUG analysis pass" ++ fieldText "kind" kind.name ++ fieldText "version" (toString version) ++
      fieldText "errors" (toString errors) ++ fieldText "warnings" (toString warnings) ++
      fieldText "suggestions" (toString suggestions)
  | becameClean kind version =>
    "TRACE buffer dirty -> clean" ++ fieldText "kind" kind.name ++
      fieldText "version" (toString version)
  | becameDirty kind version =>
    "TRACE buffer clean -> dirty" ++ fieldText "kind" kind.name ++
      fieldText "version" (toString version)
  | published kind markers =>
    "TRACE publishing markers" ++ fieldText "kind" kind.name ++
      fieldText "markers" (toString markers)
  | attached kind language =>
    "DEBUG editor attached" ++ fieldText "kind" kind.name ++
      fieldText "language" (Text.quote language)
  | built status diagnostics =>
    "DEBUG build" ++ fieldText "status" status.name ++
      fieldText "diagnostics" (toString diagnostics)

/-- The inspection text of a kind. -/
def SourceKind.inspect : SourceKind → String
  | c => "C"
  | buildconf => "Buildconf"

/-- The inspection text of a state. -/
def Freshness.inspect : Freshness → String
  | clean => "Clean"
  | dirty => "Dirty"

/-- A buffer on one line, without its text. -/
def Buffer.inspect (d : Buffer) : String :=
  "Document \x7b kind: " ++ d.kind.inspect ++ ", state: " ++ d.state.inspect ++
    ", version: " ++ toString d.version ++ ", diagnostics: " ++ toString d.report.size ++
    ", attached: " ++ LintConfig.inspectBool d.editor.isSome ++ " \x7d"

/-- A workspace on one line. -/
def Workspace.inspect (w : Workspace) : String :=
  "Orchestrator \x7b config: " ++ w.config.inspect ++ ", c: " ++ w.c.inspect ++
    ", buildconf: " ++ w.buildconf.inspect ++ ", callbacks: " ++ toString w.subscribers ++ " \x7d"

end LiveLint
