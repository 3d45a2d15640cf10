import MovieAtoms.Source.Reading

/-!
# Files

A directory answers for each path with the source of a file's bytes, or with the reason why the
file cannot be opened.
-/

namespace MovieAtoms

/-- Why a file cannot be opened. -/
inductive OpenError where
  | missing
  /-- The path leads on from a file, or ends in a slash behind one. -/
  | notADirectory
  /-- The path, or a name in it, is longer than the system allows. -/
  | nameTooLong
  /-- No path holds a null character. -/
  | nullCharacter
  | permissionDenied
  | other (reason : String)
deriving DecidableEq, Repr

def OpenError.message : OpenError → String
  | .missing => "No such file or directory (os error 2)"
  | .notADirectory => "Not a directory (os error 20)"
  | .nameTooLong => "File name too long (os error 36)"
  | .nullCharacter => "file name contained an unexpected NUL byte"
  | .permissionDenied => "Permission denied (os error 13)"
  | .other reason => reason

/-- The files that can be opened by their paths. -/
abbrev Directory := String → Except OpenError Source

/-- The directory of the given paths and what opening them brings; the first of a path counts. -/
def Directory.ofList (files : List (String × Except OpenError Source)) : Directory := fun path =>
  (files.lookup path).getD (.error .missing)

def Fault.reason : Fault → String
  | .prematureEnd => "unexpected end of file"
  | .other reason => reason

namespace Source

/-- A directory can be opened like a file, but not read. -/
def ofDirectory : Source :=
  paced [] (.fault (.other "Is a directory (os error 21)")) fun _ => ⟨0, 0⟩

/-- All bytes of a source up to its end. -/
def readToEnd (source : Source) : Except String Bytes :=
  match source.gather (source.rest.length + 1) with
  | (_, some (.fault cause), _) => .error cause.reason
  | (bytes, _, _) => .ok bytes

end Source

end MovieAtoms
