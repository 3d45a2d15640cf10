/-!
# JSON values

Values keep the order of an object's members, so that they are written in the order in which they
were given.
-/

namespace MovieAtoms

/-- A JSON value. All numbers are whole. -/
inductive Json where
  | null
  | bool (value : Bool)
  | number (value : Int)
  | string (value : String)
  | array (items : List Json)
  | object (members : List (String × Json))
deriving Repr

namespace Json

def ofNat (value : Nat) : Json := .number value

def ofList (encode : α → Json) (values : List α) : Json := .array (values.map encode)

end Json

end MovieAtoms
