import MovieAtoms.Wire

/-!
# UTF-8

Bytes are read as UTF-8 one at a time. A byte that cannot continue a character ends it and is read
again as a first byte, so an ill-formed run counts once up to the byte that breaks it.
-/

namespace MovieAtoms.Text.Utf8

/-- A character of which some bytes are still owed. -/
structure Unfinished where
  /-- The bits so far. -/
  value : Nat
  /-- The bytes owed after the next one. -/
  owed : Nat
  /-- The least and the greatest value that the next byte may have. -/
  least : UInt8
  greatest : UInt8
deriving DecidableEq, Repr

/-- What a first byte beyond ASCII announces. The ranges leave out overlong forms, surrogates and
    what lies beyond the last code point. -/
def announced? (byte : UInt8) : Option Unfinished :=
  if 0xC2 ≤ byte ∧ byte ≤ 0xDF then some ⟨byte.toNat - 0xC0, 0, 0x80, 0xBF⟩
  else if byte = 0xE0 then some ⟨0, 1, 0xA0, 0xBF⟩
  else if byte = 0xED then some ⟨0xD, 1, 0x80, 0x9F⟩
  else if 0xE1 ≤ byte ∧ byte ≤ 0xEF then some ⟨byte.toNat - 0xE0, 1, 0x80, 0xBF⟩
  else if byte = 0xF0 then some ⟨0, 2, 0x90, 0xBF⟩
  else if 0xF1 ≤ byte ∧ byte ≤ 0xF3 then some ⟨byte.toNat - 0xF0, 2, 0x80, 0xBF⟩
  else if byte = 0xF4 then some ⟨4, 2, 0x80, 0x8F⟩
  else none

/-- The characters that a first byte completes, where nothing stands for an ill-formed run, and
    the character that it leaves unfinished. -/
def start (byte : UInt8) : List (Option Char) × Option Unfinished :=
  if byte < 0x80 then ([some (Char.ofNat byte.toNat)], none)
  else
    match announced? byte with
    | some unfinished => ([], some unfinished)
    | none => ([none], none)

/-- The same for any byte, given the character left unfinished by the bytes in front of it. -/
def step : Option Unfinished → UInt8 → List (Option Char) × Option Unfinished
  | none, byte => start byte
  | some unfinished, byte =>
      if unfinished.least ≤ byte ∧ byte ≤ unfinished.greatest then
        let value := unfinished.value * 64 + byte.toNat % 64
        match unfinished.owed with
        | 0 => ([some (Char.ofNat value)], none)
        | owed + 1 => ([], some ⟨value, owed, 0x80, 0xBF⟩)
      else (none :: (start byte).1, (start byte).2)

/-- The characters of bytes, where nothing stands for each ill-formed run. -/
def characters (unfinished : Option Unfinished) : Bytes → List (Option Char)
  | [] => if unfinished.isSome then [none] else []
  | byte :: rest =>
      let (done, next) := step unfinished byte
      done ++ characters next rest

/-- The text of bytes, where a replacement character stands for each ill-formed run. -/
def decodeLossy (bytes : Bytes) : String :=
  String.ofList ((characters none bytes).map (·.getD '\uFFFD'))

/-- The text of well-formed bytes. -/
def decode? (bytes : Bytes) : Option String :=
  ((characters none bytes).mapM id).map String.ofList

example : decodeLossy [0x61, 0xE2, 0x82, 0xAC, 0xF0, 0x9F, 0x62, 0xC0, 0x80] =
    "a€\uFFFDb\uFFFD\uFFFD" := by decide

end MovieAtoms.Text.Utf8
