import MovieAtoms.Tag

/-!
# Directives

A walk through a movie follows a list of directives. Each names the tag of an atom to look for
among the atoms that follow, and says what to do with it.
-/

namespace MovieAtoms

/-- What to do with the atom that was looked for. -/
inductive Operation where
  /-- Decode the atom and keep its record. -/
  | read
  /-- Go on with the atoms inside it. -/
  | stepInto
  /-- Pass over its payload. -/
  | skip
deriving DecidableEq, Repr

/-- The words that ask for an operation. -/
def Operation.text : Operation → String
  | .read => "read"
  | .stepInto => "step into"
  | .skip => "skip"

/-- An operation on the next atom of a tag. -/
structure Directive where
  operation : Operation
  tag : Tag
deriving DecidableEq, Repr

/-- The line that asks for a directive. -/
def Directive.text (directive : Directive) : String :=
  directive.operation.text ++ " " ++ directive.tag.text

end MovieAtoms
