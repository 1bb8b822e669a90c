import LiveLint.CommandLine.Call
import LiveLint.CommandLine.FileTree
import LiveLint.Config.Reader
import LiveLint.Workspace.Basic

/-!
# A run of the command line

Files are checked one after the other in one workspace, each in place of the last of its kind, and
what is found is printed with the path. The first file that cannot be checked ends the run; what
was printed before stays. A build, if it is asked for, reports on the last file of each kind, or
on the starter text of a kind without one.

The exit code is 2 if the run ended early, 1 if an error was found or the build failed, and 0
otherwise.
-/

namespace LiveLint.CommandLine

/-- Why a run ended early. -/
inductive RunError
  | configUnreadable (cause : ReadError)
  | configInvalid (cause : ConfigError)
  | fileUnreadable (path : String) (cause : ReadError)
  | unknownKind (path : String)
deriving DecidableEq, Repr

/-- What to tell the caller. -/
def RunError.message : RunError → String
  | configUnreadable cause => "config error: I/O error: " ++ cause.message
  | configInvalid cause => "config error: " ++ cause.message
  | fileUnreadable path cause => "failed to read " ++ path ++ ": " ++ cause.message
  | unknownKind path =>
    "cannot tell the source kind of " ++ path ++
      " (expected .c, .h, .muf, .buildconf or .steelconf)"

/-- A finding as it is printed. -/
def printed (path : String) (d : Diagnostic) : String :=
  let code := d.code.getD "-"
  let place := match d.line with
    | some line => path ++ ":" ++ toString line
    | none => path
  place ++ ": " ++ d.severity.name ++ "[" ++ code ++ "]: " ++ d.message ++ "\n"

/-- What a run has done so far. -/
structure Progress where
  workspace : Workspace
  /-- What was printed. -/
  output : String
  /-- Whether an error was found. -/
  failed : Bool

/-- The configuration that a call names. -/
def loadConfig (read : Reader) : Option String → Except RunError LintConfig
  | none => .ok .default
  | some path =>
    match read path with
    | .error cause => .error (.configUnreadable cause)
    | .ok text => (LintConfig.ofYaml text).mapError .configInvalid

/-- The kind and the text of a file. The kind is looked at first. -/
def loadFile (read : Reader) (path : String) : Except RunError (SourceKind × String) :=
  match sourceKind? path with
  | none => .error (.unknownKind path)
  | some kind =>
    match read path with
    | .error cause => .error (.fileUnreadable path cause)
    | .ok text => .ok (kind, text)

/-- Check a text and print what is found. -/
def Progress.check (p : Progress) (path : String) (kind : SourceKind) (text : String) : Progress :=
  let workspace := p.workspace.setText kind text
  let report := workspace.report kind
  { workspace
    output := p.output ++ String.join (report.diagnostics.map (printed path))
    failed := p.failed || report.hasErrors }

/-- Check files one after the other, up to the first that cannot be checked. -/
def Progress.checkFiles (read : Reader) (p : Progress) : List String → Progress × Option RunError
  | [] => (p, none)
  | path :: paths =>
    match loadFile read path with
    | .error e => (p, some e)
    | .ok (kind, text) => (p.check path kind text).checkFiles read paths

/-- Build and print the report. -/
def Progress.build (p : Progress) : Progress :=
  let (workspace, build) := p.workspace.build
  { workspace
    output := p.output ++ build.display
    failed := p.failed || !build.succeeded }

/-- How a run ended: its exit code, and what it printed to either stream. -/
structure Outcome where
  exit : Nat
  output : String
  errors : String
deriving DecidableEq, Repr

/-- The end of a run that a failure ended. -/
def Outcome.ofFailure (output message : String) : Outcome :=
  ⟨2, output, message ++ "\n"⟩

/-- Do what a call asks for. -/
def perform (read : Reader) (call : Call) : Outcome :=
  match loadConfig read call.config with
  | .error e => .ofFailure "" ("bakelint: " ++ e.message)
  | .ok config =>
    match Progress.checkFiles read ⟨.start config, "", false⟩ call.files with
    | (p, some e) => .ofFailure p.output ("bakelint: " ++ e.message)
    | (p, none) =>
      let p := if call.build then p.build else p
      ⟨if p.failed then 1 else 0, p.output, ""⟩

/-- Do what a call asks for, or tell how to call. -/
def run (read : Reader) (raw : List String) : Outcome :=
  match Call.ofList raw with
  | .error e => .ofFailure "" e.message
  | .ok call => perform read call

end LiveLint.CommandLine
