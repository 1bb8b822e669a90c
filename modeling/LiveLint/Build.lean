import LiveLint.Report

/-!
# Builds

A build compiles nothing. It tells whether the reports on both buffers hold an error, how many
findings they have, and which artifacts a real build of the starter project would make.
-/

namespace LiveLint

/-- How a build ended. -/
inductive BuildStatus
  | succeeded
  | failed
deriving DecidableEq, Repr

/-- The word for how a build ended. -/
def BuildStatus.name : BuildStatus → String
  | succeeded => "succeeded"
  | failed => "failed"

/-- The artifacts that every build lists. -/
def buildArtifacts : List String :=
  ["target/out/app.exe", "target/out/app.o"]

/-- What a build tells. -/
structure Build where
  /-- The findings of all buffers. -/
  report : Report

namespace Build

/-- A build fails if an error was found. -/
def status (b : Build) : BuildStatus :=
  if b.report.hasErrors then .failed else .succeeded

/-- Whether no error was found. -/
def succeeded (b : Build) : Bool :=
  b.status == .succeeded

/-- The build on one line. -/
def summary (b : Build) : String :=
  "build " ++ b.status.name ++ ": " ++ toString (b.report.count .error) ++ " error(s), " ++
    toString (b.report.count .warning) ++ " warning(s), " ++
    toString (b.report.count .suggestion) ++ " suggestion(s)"

/-- The build as it is printed: its summary, and a line for each artifact. -/
def display (b : Build) : String :=
  b.summary ++ "\n" ++
    String.join (buildArtifacts.map fun artifact => "  artifact: " ++ artifact ++ "\n")

end Build

end LiveLint
