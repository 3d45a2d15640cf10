import MovieAtoms.Decimal.Fixed
import MovieAtoms.Wire

/-!
# Hexadecimal text

Bytes are written as two small hexadecimal digits each, the high one first, as hex documents for its
`encode`; numbers have as many digits as they need.

Main statement: `bytes?_ofBytes`, by which the text of bytes reads back as these bytes.
-/

namespace MovieAtoms.Text.Hex

def digit (value : Nat) : Char :=
  Char.ofNat (if value < 10 then '0'.toNat + value else 'a'.toNat + (value - 10))

/-- The value of a hexadecimal digit, small or capital. -/
def value? (c : Char) : Option Nat :=
  if '0' ≤ c ∧ c ≤ '9' then some (c.toNat - '0'.toNat)
  else if 'a' ≤ c ∧ c ≤ 'f' then some (c.toNat - 'a'.toNat + 10)
  else if 'A' ≤ c ∧ c ≤ 'F' then some (c.toNat - 'A'.toNat + 10)
  else none

def ofByte (byte : UInt8) : List Char := [digit (byte.toNat / 16), digit (byte.toNat % 16)]

def ofBytes (bytes : Bytes) : List Char := bytes.flatMap ofByte

/-- A number in capital digits, with zeros in front up to a least width. -/
def capitals (width number : Nat) : List Char :=
  Decimal.padLeft width '0' ((Nat.toDigits 16 number).map Char.toUpper)

/-- The bytes that pairs of digits spell. -/
def bytes? : List Char → Option Bytes
  | [] => some []
  | high :: low :: rest => do
      let byte := UInt8.ofNat ((← value? high) * 16 + (← value? low))
      return byte :: (← bytes? rest)
  | [_] => none

theorem value?_digit {value : Nat} (h : value < 16) : value? (digit value) = some value := by
  revert h
  revert value
  decide

theorem bytes?_ofBytes (bytes : Bytes) : bytes? (ofBytes bytes) = some bytes := by
  induction bytes with
  | nil => rfl
  | cons byte rest ih =>
      have hbyte := byte.toNat_lt
      have hhigh : value? (digit (byte.toNat / 16)) = some (byte.toNat / 16) :=
        value?_digit (by omega)
      have hlow : value? (digit (byte.toNat % 16)) = some (byte.toNat % 16) :=
        value?_digit (by omega)
      simp only [ofBytes] at ih
      simp only [ofBytes, List.flatMap_cons, ofByte, List.cons_append, List.nil_append, bytes?,
        hhigh, hlow, ih]
      simp only [Option.bind_eq_bind, Option.bind_some, Option.pure_def]
      rw [show byte.toNat / 16 * 16 + byte.toNat % 16 = byte.toNat by omega, UInt8.ofNat_toNat]

end MovieAtoms.Text.Hex
