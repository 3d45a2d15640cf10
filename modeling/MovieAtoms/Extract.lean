import MovieAtoms.Directory
import MovieAtoms.Script
import MovieAtoms.Walk

/-!
# Extracting atoms by a script

A script is compiled before anything is read, so a mistake in it consumes no byte and is reported
even when the file is missing.

Main statement: `extract_of_compile_error`, by which a script that does not compile leaves the source
alone.
-/

namespace MovieAtoms

/-- Why an extraction fails. -/
inductive ExtractError where
  | script (error : Script.Error)
  | openFailed (path : String) (cause : OpenError)
  | decode (error : DecodeError)
deriving DecidableEq, Repr

def ExtractError.message : ExtractError → String
  | .script error => "compile: " ++ error.message
  | .openFailed path cause => "open " ++ path ++ ": " ++ cause.message
  | .decode error => "decode: " ++ error.message

/-- The outcome of an extraction, the events of its walk, and the source it leaves. -/
structure Extracted where
  result : Except ExtractError Extraction
  events : List Event
  source : Source

/-- Walks a source by a script. -/
def extract (script : String) (source : Source) : Extracted :=
  match Script.compile script with
  | .error error => ⟨.error (.script error), [], source⟩
  | .ok directives =>
      let (log, last) := Walk.run directives source
      ⟨log.result.mapError .decode, log.events, last⟩

/-- Walks a file by a script. -/
def extractFile (directory : Directory) (path script : String) : Except ExtractError Extraction :=
  match Script.compile script with
  | .error error => .error (.script error)
  | .ok directives =>
      match directory path with
      | .error cause => .error (.openFailed path cause)
      | .ok source => (Walk.run directives source).1.result.mapError .decode

/-- A script that does not compile leaves the source alone. -/
theorem extract_of_compile_error {script : String} {source : Source} {error : Script.Error}
    (h : Script.compile script = .error error) :
    extract script source = ⟨.error (.script error), [], source⟩ := by
  simp [extract, h]

end MovieAtoms
