import MovieAtoms.CommandLine.Run

/-!
# The program

Reads the files that the command line names, runs it, and prints the outcome.
-/

namespace MovieAtoms.CommandLine

/-- Opens a file with its whole contents. A failure to open names the path, a failure to read
does not. -/
def openFile (path : String) : IO (Except OpenError Source) := do
  try
    let contents ← IO.FS.readBinFile path
    return .ok (Source.ofBytes contents.toList)
  catch
    | .noFileOrDirectory .. => return .error .missing
    | .inappropriateType none .. => return .ok Source.ofDirectory
    | .inappropriateType .. => return .error .notADirectory
    | .invalidArgument .. => return .error .nameTooLong
    | .permissionDenied .. => return .error .permissionDenied
    | error => return .error (.other (toString error))

/-- Runs a command line on the files that it names, and prints what comes of it. -/
def perform (arguments : List String) : IO UInt32 := do
  let paths := (Arguments.parse arguments).toOption.toList.flatMap Arguments.files
  let files ← paths.mapM fun path => return (path, ← openFile path)
  let outcome := runBy Arguments.parse .timeless (Directory.ofList files) arguments
  IO.print outcome.output
  IO.eprint outcome.errorOutput
  return UInt32.ofNat outcome.exitCode

end MovieAtoms.CommandLine

def main (arguments : List String) : IO UInt32 := MovieAtoms.CommandLine.perform arguments
