import MovieAtoms.Text.Quoted

/-!
# Mistakes in scripts

What can be wrong with a line of a script, and the report that points at the line.
-/

namespace MovieAtoms.Script

/-- What is wrong with a line. -/
inductive Mistake where
  /-- The line does not start with an operation. -/
  | unknownKeyword
  /-- `step` without `into`. -/
  | missingInto
  /-- Not exactly one word after the operation. -/
  | wrongWordCount
  /-- A name that does not have four characters. -/
  | badNameLength
  /-- A name with a character beyond ASCII. -/
  | nonAsciiName
deriving DecidableEq, Repr

def Mistake.message : Mistake → String
  | .unknownKeyword => "expected 'read', 'skip' or 'step into'"
  | .missingInto => "'step' must be followed by 'into'"
  | .wrongWordCount => "expected exactly one atom name"
  | .badNameLength => "atom names are exactly 4 characters"
  | .nonAsciiName => "atom names are ASCII"

/-- The first mistake of a script. -/
structure Error where
  /-- Lines count from one, blank ones and comments included. -/
  lineNumber : Nat
  /-- The line as it was written, without the blanks at its ends. -/
  line : String
  mistake : Mistake
deriving DecidableEq, Repr

def Error.message (error : Error) : String :=
  "syntax error on line " ++ toString error.lineNumber ++ ": " ++ error.mistake.message ++ ": " ++
    Text.quoted error.line

end MovieAtoms.Script
