import MovieAtoms.Event

/-!
# Arguments of the command line

What a command line asks for: a movie file, a script to walk it by, and how to show what is found.
The arguments are taken apart by a parser, which ends the run itself where they make no sense, and
where they ask for help only.
-/

namespace MovieAtoms.CommandLine

/-- What a run prints and how it exits. -/
structure Outcome where
  exitCode : Nat
  output : String
  errorOutput : String
deriving DecidableEq, Repr

inductive ScriptSource where
  | lines (lines : List String)
  | file (path : String)
deriving DecidableEq, Repr

/-- The script of a command line that gives none. -/
def defaultScript : ScriptSource := .lines ["step into moov", "read mvhd"]

/-- What a command line asks for. -/
structure Arguments where
  path : String
  /-- The script line by line, if it is given so. -/
  lines : List String
  scriptFile : Option String
  json : Bool
  /-- Raw payloads are dumped up to this many bytes. -/
  dumpLimit : Nat
  showScript : Bool
  /-- How many times more of the log is asked for. -/
  verbosity : Nat
deriving DecidableEq, Repr

namespace Arguments

/-- A file goes before lines. -/
def script (arguments : Arguments) : ScriptSource :=
  match arguments.scriptFile with
  | some path => .file path
  | none => if arguments.lines = [] then defaultScript else .lines arguments.lines

def files (arguments : Arguments) : List String :=
  match arguments.script with
  | .lines _ => [arguments.path]
  | .file script => [script, arguments.path]

/-- The level that the log is kept down to where the environment does not say otherwise. -/
def level (arguments : Arguments) : Level := .ofVerbosity arguments.verbosity

end Arguments

/-- Takes arguments apart, or ends the run with an outcome of its own. -/
abbrev Parser := List String → Except Outcome Arguments

end MovieAtoms.CommandLine
