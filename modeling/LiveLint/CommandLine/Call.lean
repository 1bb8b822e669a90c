/-!
# Calls of the command

`bakelint [--config FILE] [--build] FILE...`. Arguments are read from the left. The last
configuration named counts. Without a file there is nothing to do, unless a build is asked for.
-/

namespace LiveLint.CommandLine

/-- How the command is called. -/
def usageText : String := "bakelint [--config FILE] [--build] FILE..."

/-- What a call asks for. -/
structure Call where
  config : Option String
  build : Bool
  files : List String
deriving DecidableEq, Repr

/-- Why a call asks for nothing. -/
inductive UsageError
  /-- Help was asked for, or nothing. -/
  | help
  | configWithoutFile
  | unknownFlag (flag : String)
deriving DecidableEq, Repr

/-- What to tell the caller. -/
def UsageError.message : UsageError → String
  | help => "usage: " ++ usageText
  | configWithoutFile => "usage: --config needs a file\n" ++ usageText
  | unknownFlag flag => "usage: unknown flag " ++ flag ++ "\n" ++ usageText

namespace Call

/-- No argument read yet. -/
def none : Call := ⟨.none, false, []⟩

/-- Read arguments on. -/
def readFrom (call : Call) : List String → Except UsageError Call
  | [] => .ok call
  | "--config" :: [] => .error .configWithoutFile
  | "--config" :: path :: rest => { call with config := some path }.readFrom rest
  | "--build" :: rest => { call with build := true }.readFrom rest
  | "-h" :: _ => .error .help
  | "--help" :: _ => .error .help
  | arg :: rest =>
    if ['-'].isPrefixOf arg.toList then .error (.unknownFlag arg)
    else { call with files := call.files ++ [arg] }.readFrom rest

/-- Read the arguments of a call. -/
def ofList (raw : List String) : Except UsageError Call := do
  let call ← none.readFrom raw
  if call.files.isEmpty && !call.build then throw .help
  pure call

/-- All paths that a call reads. -/
def paths (call : Call) : List String :=
  call.config.toList ++ call.files

end Call

end LiveLint.CommandLine
