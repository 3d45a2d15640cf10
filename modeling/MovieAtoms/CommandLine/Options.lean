import MovieAtoms.CommandLine.Arguments

/-!
# Options

A parser of arguments. Options may stand anywhere in front of `--`; a long option takes its value
from behind an equals sign or from the next argument, a short one also from the characters behind
it. A value in an argument of its own does not start with `-`, unless it is `-` alone.

These are the rules that clap documents for the options declared here. What clap prints where the
arguments make no sense, and its help, are its own: this parser prints one line instead, and knows
of no option that asks for help.
-/

namespace MovieAtoms.CommandLine

/-- An option that takes a value. -/
inductive Valued where
  | line
  | scriptFile
  | dumpLimit
deriving DecidableEq, Repr

inductive Item where
  | path (path : String)
  | line (line : String)
  | scriptFile (path : String)
  | dumpLimit (count : Nat)
  | json
  | showScript
  | verbose
deriving DecidableEq, Repr

namespace Item

def path? : Item → Option String
  | .path value => some value
  | _ => none

def line? : Item → Option String
  | .line value => some value
  | _ => none

def scriptFile? : Item → Option String
  | .scriptFile value => some value
  | _ => none

def dumpLimit? : Item → Option Nat
  | .dumpLimit value => some value
  | _ => none

end Item

/-- A count is decimal, may have a plus sign, and is below 2^64. -/
def count? (text : List Char) : Option Nat :=
  let digits := if text.head? = some '+' then text.tail else text
  if digits.isEmpty || !digits.all Char.isDigit then none
  else
    let count := digits.foldl (fun value digit => value * 10 + (digit.toNat - '0'.toNat)) 0
    if count < UInt64.size then some count else none

def Valued.item? (option : Valued) (value : List Char) : Option Item :=
  match option with
  | .line => some (.line (String.ofList value))
  | .scriptFile => some (.scriptFile (String.ofList value))
  | .dumpLimit => (count? value).map .dumpLimit

inductive Expecting where
  | anything
  | value (option : Valued)
  | paths
deriving DecidableEq, Repr

/-- The items of an argument, and what it lets follow; nothing if it makes no sense. -/
abbrev Reading := Option (List Item × Expecting)

/-- An option with its value behind it, or in the next argument. -/
def valued (option : Valued) : Option (List Char) → Reading
  | some value => (option.item? value).map fun item => ([item], .anything)
  | none => some ([], .value option)

/-- A long option, given without its dashes. -/
def longOption (text : List Char) : Reading :=
  let name := String.ofList (text.takeWhile (· ≠ '='))
  let attached := match text.dropWhile (· ≠ '=') with
    | [] => none
    | _ :: value => some value
  match name, attached with
  | "exec", _ => valued .line attached
  | "program", _ => valued .scriptFile attached
  | "hex", _ => valued .dumpLimit attached
  | "json", none => some ([.json], .anything)
  | "show-program", none => some ([.showScript], .anything)
  | "verbose", none => some ([.verbose], .anything)
  | _, _ => none

/-- The value behind a short option; an equals sign may stand in front of it. -/
def behindShort? : List Char → Option (List Char)
  | [] => none
  | '=' :: value => some value
  | value => some value

/-- Short options in one argument. The rest of the argument is the value of the first that takes
    one. -/
def shortOptions : List Char → Reading
  | [] => some ([], .anything)
  | 'v' :: rest => (shortOptions rest).map fun (items, next) => (.verbose :: items, next)
  | 'e' :: rest => valued .line (behindShort? rest)
  | 'p' :: rest => valued .scriptFile (behindShort? rest)
  | _ => none

def argument (text : List Char) : Reading :=
  match text with
  | ['-'] => some ([.path "-"], .anything)
  | ['-', '-'] => some ([], .paths)
  | '-' :: '-' :: long => longOption long
  | '-' :: short => shortOptions short
  | path => some ([.path (String.ofList path)], .anything)

/-- Whether an argument is an option, and so cannot be a value. -/
def isOption : List Char → Bool
  | '-' :: _ :: _ => true
  | _ => false

/-- What the arguments say, in order; nothing if they make no sense. -/
def items? : Expecting → List String → Option (List Item)
  | .anything, [] | .paths, [] => some []
  | .value _, [] => none
  | .paths, path :: rest => (items? .paths rest).map (.path path :: ·)
  | .value option, text :: rest =>
      if isOption text.toList then none
      else do
        let item ← option.item? text.toList
        return item :: (← items? .anything rest)
  | .anything, text :: rest => do
      let (first, next) ← argument text.toList
      return first ++ (← items? next rest)

/-- The items of one sort that may be given at most once. -/
def atMostOne? : List α → Option (Option α)
  | [] => some none
  | [value] => some (some value)
  | _ => none

namespace Arguments

/-- What items ask for; nothing if they make no sense together. Only lines of the script and `-v`
    may be given more than once, and a script is given by lines or by a file, not by both. -/
def ofItems? (items : List Item) : Option Arguments := do
  let path ← (← atMostOne? (items.filterMap Item.path?))
  let lines := items.filterMap Item.line?
  let scriptFile ← atMostOne? (items.filterMap Item.scriptFile?)
  if lines ≠ [] ∧ scriptFile ≠ none then none
  let json ← atMostOne? (items.filter (· = .json))
  let dumpLimit ← atMostOne? (items.filterMap Item.dumpLimit?)
  let showScript ← atMostOne? (items.filter (· = .showScript))
  return {
    path
    lines
    scriptFile
    json := json.isSome
    dumpLimit := dumpLimit.getD 0
    showScript := showScript.isSome
    verbosity := items.count .verbose }

def usage : String :=
  "usage: PATH [-e LINE]... [-p FILE] [--json] [--hex COUNT] [--show-program] [-v]...\n"

def parse : Parser := fun arguments =>
  match (items? .anything arguments).bind ofItems? with
  | some given => .ok given
  | none => .error ⟨2, "", usage⟩

end Arguments

end MovieAtoms.CommandLine
