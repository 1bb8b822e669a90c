import LiveLint.CommandLine.Run

/-!
# The command

Reads the files that a call names, runs the call on what was read, prints, and gives the exit
code. All decisions are in `LiveLint.CommandLine`.
-/

namespace LiveLint.CommandLine

/-- The failure that an error of the system tells. Reading a directory has the number 21; the
other mismatch of types is a path that goes through a file. -/
def ReadError.ofSystem : IO.Error → ReadError
  | .noFileOrDirectory .. => .notFound
  | .inappropriateType _ code _ => if code = 21 then .isDirectory else .notDirectory
  | e => .other (toString e)

/-- Read the file at a path. -/
def readPath (path : String) : IO (Except ReadError String) := do
  try
    return textOfBytes (← IO.FS.readBinFile path)
  catch e => return .error (.ofSystem e)

/-- Read all paths that a call names, as far as it is a call. -/
def readAll (raw : List String) : IO (List (String × Except ReadError String)) := do
  match Call.ofList raw with
  | .error _ => return []
  | .ok call => call.paths.mapM fun path => return (path, ← readPath path)

end LiveLint.CommandLine

/-- Run the command. -/
def main (raw : List String) : IO UInt32 := do
  let read ← LiveLint.CommandLine.readAll raw
  let reader : LiveLint.CommandLine.Reader := fun path =>
    (read.lookup path).getD (.error .notFound)
  let outcome := LiveLint.CommandLine.run reader raw
  IO.print outcome.output
  IO.eprint outcome.errors
  return outcome.exit.toUInt32
