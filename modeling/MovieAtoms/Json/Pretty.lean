import MovieAtoms.Decimal.Fixed
import MovieAtoms.Json

/-!
# JSON text over several lines

Every item and member stands on a line of its own, indented by two spaces for each level. Empty
arrays and objects stay on one line. In strings only quotes, backslashes and controls are escaped.
This is the pretty form that serde_json documents.
-/

namespace MovieAtoms.Json

/-- How a character is written in a string. -/
def escapeChar (c : Char) : List Char :=
  if c = '"' then ['\\', '"']
  else if c = '\\' then ['\\', '\\']
  else if c = '\n' then ['\\', 'n']
  else if c = '\r' then ['\\', 'r']
  else if c = '\t' then ['\\', 't']
  else if c = '\x08' then ['\\', 'b']
  else if c = '\x0c' then ['\\', 'f']
  else if c.toNat < 32 then ['\\', 'u'] ++ Decimal.padLeft 4 '0' (Nat.toDigits 16 c.toNat)
  else [c]

/-- A string between quotes. -/
def quoted (text : String) : String :=
  String.ofList ('"' :: text.toList.flatMap escapeChar ++ ['"'])

/-- A line break and the indentation of a level. -/
def newLine (level : Nat) : String := String.ofList ('\n' :: List.replicate (2 * level) ' ')

/-- Joins texts with a comma and the line break of a level. -/
def onLines (level : Nat) (texts : List String) : String :=
  newLine level ++ ("," ++ newLine level).intercalate texts

mutual

/-- The text of a value whose lines after the first are indented to a level. -/
def pretty (level : Nat) : Json → String
  | .null => "null"
  | .bool value => toString value
  | .number value => toString value
  | .string value => quoted value
  | .array [] => "[]"
  | .array items => "[" ++ onLines (level + 1) (prettyItems (level + 1) items) ++ newLine level ++ "]"
  | .object [] => "\x7b\x7d"
  | .object members =>
      "\x7b" ++ onLines (level + 1) (prettyMembers (level + 1) members) ++ newLine level ++ "\x7d"

def prettyItems (level : Nat) : List Json → List String
  | [] => []
  | item :: rest => pretty level item :: prettyItems level rest

def prettyMembers (level : Nat) : List (String × Json) → List String
  | [] => []
  | (name, value) :: rest => (quoted name ++ ": " ++ pretty level value) :: prettyMembers level rest

end

end MovieAtoms.Json
