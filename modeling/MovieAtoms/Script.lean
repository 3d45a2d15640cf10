import MovieAtoms.Directive
import MovieAtoms.Script.Mistake
import MovieAtoms.Text.LowerCase

/-!
# Scripts

A script asks for directives, one to a line:

* `read`, `skip` or `step into`, and then the name of an atom, four ASCII characters long;
* capitals count as small letters;
* a word that starts with `#` starts a comment, which ends with the line;
* lines without words ask for nothing.

Main statement: `compileFrom_ok_iff`, by which a script compiles exactly if each line does by itself.
-/

namespace MovieAtoms

abbrev Script := List Directive

namespace Script

def tagOfName : List Char → Except Mistake Tag
  | [a, b, c, d] =>
      if [a, b, c, d].all Text.isAscii then .ok (Tag.spelled a b c d) else .error .nonAsciiName
  | _ => .error .badNameLength

/-- The directive of an operation on the one atom that the words after it name. -/
def directive (operation : Operation) : List (List Char) → Except Mistake Directive
  | [name] => (tagOfName name).map (⟨operation, ·⟩)
  | _ => .error .wrongWordCount

/-- The directive that words ask for; no words ask for none. -/
def compileWords : List (List Char) → Except Mistake (Option Directive)
  | [] => .ok none
  | first :: rest =>
      if first = "read".toList then (directive .read rest).map some
      else if first = "skip".toList then (directive .skip rest).map some
      else if first = "step".toList then
        match rest with
        | second :: rest =>
            if second = "into".toList then (directive .stepInto rest).map some
            else .error .missingInto
        | [] => .error .missingInto
      else .error .unknownKeyword

/-- The words in front of the first that starts a comment. -/
def beforeComment (words : List (List Char)) : List (List Char) :=
  words.takeWhile fun word => word.head? ≠ some '#'

/-- The directive that a line asks for; blank and comment lines ask for none. -/
def compileLine (line : List Char) : Except Mistake (Option Directive) :=
  compileWords (beforeComment (Text.words (Text.lower line)))

/-- Compiles lines of which the first has the given number. -/
def compileFrom (number : Nat) : List (List Char) → Except Error Script
  | [] => .ok []
  | line :: rest =>
      match compileLine line with
      | .error mistake => .error ⟨number, String.ofList (Text.trim line), mistake⟩
      | .ok asked => (compileFrom (number + 1) rest).map (asked.toList ++ ·)

def compileLines (lines : List String) : Except Error Script :=
  compileFrom 1 (lines.map String.toList)

def compile (text : String) : Except Error Script :=
  compileFrom 1 (Text.lines text.toList)

/-- The text of a script, each line ended. -/
def text (script : Script) : String :=
  String.join (script.map fun directive => directive.text ++ "\n")

/-- A script compiles exactly if each line does by itself. -/
theorem compileFrom_ok_iff (number : Nat) (lines : List (List Char)) (script : Script) :
    compileFrom number lines = .ok script ↔
      ∃ asked : List (Option Directive),
        lines.map compileLine = asked.map .ok ∧ script = asked.flatMap Option.toList := by
  induction lines generalizing number script with
  | nil =>
      constructor
      · intro h
        cases h
        exact ⟨[], rfl, rfl⟩
      · rintro ⟨asked, hasked, rfl⟩
        cases asked with
        | nil => rfl
        | cons => simp at hasked
  | cons line rest ih =>
      rw [compileFrom]
      cases hline : compileLine line with
      | error mistake =>
          simp only [reduceCtorEq, List.map_cons, hline, false_iff, not_exists, not_and]
          intro asked hasked
          cases asked <;> simp at hasked
      | ok first =>
          constructor
          · intro h
            cases hrest : compileFrom (number + 1) rest with
            | error e => simp [hrest, Except.map] at h
            | ok tail =>
                obtain ⟨asked, hasked, rfl⟩ := (ih _ _).mp hrest
                simp only [hrest, Except.map, Except.ok.injEq] at h
                exact ⟨first :: asked, by simp [hline, hasked], by simp [← h]⟩
          · rintro ⟨asked, hasked, rfl⟩
            cases asked with
            | nil => simp at hasked
            | cons head tail =>
                simp only [List.map_cons, hline, List.cons.injEq, Except.ok.injEq] at hasked
                obtain ⟨rfl, hasked⟩ := hasked
                simp [(ih (number + 1) _).mpr ⟨tail, hasked, rfl⟩, Except.map]

end Script

end MovieAtoms
