import MovieAtoms.CommandLine.Logger
import MovieAtoms.CommandLine.Options
import MovieAtoms.CommandLine.Report
import MovieAtoms.Extract
import MovieAtoms.Text.Utf8

/-!
# Running the command line

A run compiles its script, opens the movie and walks it, in this order, and stops at the first
failure. Nothing is printed on the standard output unless all of it succeeds. The standard error
shows the script if that is asked for, then the log of the walk, and last what went wrong, in the
form that anyhow documents for the errors of a main function.
-/

namespace MovieAtoms.CommandLine

/-- What went wrong, and the cause below it. -/
structure Failure where
  message : String
  cause : Option String
deriving DecidableEq, Repr

def Failure.text (failure : Failure) : String :=
  "Error: " ++ failure.message ++
    match failure.cause with
    | some cause => "\n\nCaused by:\n    " ++ cause ++ "\n"
    | none => "\n"

def scriptText (directory : Directory) (path : String) : Except Failure String :=
  let failed cause : Except Failure String := .error ⟨"reading program " ++ path, some cause⟩
  match directory path with
  | .error error => failed error.message
  | .ok source =>
      match source.readToEnd with
      | .error reason => failed reason
      | .ok bytes =>
          match Text.Utf8.decode? bytes with
          | some text => .ok text
          | none => failed "stream did not contain valid UTF-8"

def compiled (directory : Directory) (source : ScriptSource) : Except Failure Script := do
  let script ← match source with
    | .lines lines => pure (Script.compileLines lines)
    | .file path => Script.compile <$> scriptText directory path
  script.mapError fun error => ⟨error.message, none⟩

/-- What a walk through a file finds, and its events. -/
def walked (directory : Directory) (path : String) (script : Script) :
    List Event × Except Failure Extraction :=
  match directory path with
  | .error error => ([], .error ⟨"opening " ++ path, some error.message⟩)
  | .ok source =>
      let log := (Walk.run script source).1
      (log.events, log.result.mapError fun error => ⟨"decoding " ++ path, some error.message⟩)

def Arguments.run (logger : Logger) (directory : Directory) (arguments : Arguments) : Outcome :=
  match compiled directory arguments.script with
  | .error failure => ⟨1, "", failure.text⟩
  | .ok script =>
      let shown := if arguments.showScript then script.text else ""
      let (events, found) := walked directory arguments.path script
      let written := shown ++ logger.text arguments.level events
      match found with
      | .error failure => ⟨1, "", written ++ failure.text⟩
      | .ok extraction =>
          let report :=
            if arguments.json then jsonReport arguments.path extraction
            else listing arguments.dumpLimit extraction
          ⟨0, report, written⟩

/-- Runs a command line that a parser takes apart. -/
def runBy (parse : Parser) (logger : Logger) (directory : Directory) (arguments : List String) :
    Outcome :=
  match parse arguments with
  | .error outcome => outcome
  | .ok given => given.run logger directory

/-- Runs a command line without a log. -/
def run (directory : Directory) (arguments : List String) : Outcome :=
  runBy Arguments.parse .silent directory arguments

end MovieAtoms.CommandLine
