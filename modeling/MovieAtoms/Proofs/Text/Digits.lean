import MovieAtoms.Text.Hex

/-!
# Numbers read from their digits

Numbers stand in texts as digits of base ten or sixteen, often with zeros in front. Main statement:
`numberOf?_padLeft`, by which the digits and zeros that a number is written with spell this number.
-/

namespace MovieAtoms.Text

/-- The number that digits spell in a base of at most sixteen. -/
def numberOf? (base : Nat) (digits : List Char) : Option Nat :=
  digits.foldlM (fun number digit => do
    let value ← Hex.value? digit
    if value < base then some (number * base + value) else none) 0

variable {base number : Nat}

theorem value?_digitChar : ∀ value < 16, Hex.value? (Nat.digitChar value) = some value := by
  decide

theorem numberOf?_concat {digits : List Char} {value : Nat} (hbase : base ≤ 16) (hvalue : value < base)
    (h : numberOf? base digits = some number) :
    numberOf? base (digits ++ [Nat.digitChar value]) = some (number * base + value) := by
  have hdigit := value?_digitChar value (by omega)
  rw [numberOf?] at h
  rw [numberOf?, List.foldlM_append, h]
  simp [hdigit, hvalue]

theorem numberOf?_toDigits (hone : 1 < base) (hbase : base ≤ 16) (number : Nat) :
    numberOf? base (Nat.toDigits base number) = some number := by
  induction number using Nat.strongRecOn with
  | ind number ih =>
      rw [Nat.toDigits_eq_if hone]
      split
      · rename_i hsmall
        have hdigit : numberOf? base ([] ++ [Nat.digitChar number]) = some (0 * base + number) :=
          numberOf?_concat hbase hsmall rfl
        simpa using hdigit
      · rename_i hlarge
        have hless : number / base < number := Nat.div_lt_self (by omega) hone
        have hmod : number % base < base := Nat.mod_lt _ (by omega)
        rw [numberOf?_concat hbase hmod (ih _ hless), Nat.div_add_mod']

/-- Zeros in front do not count. -/
theorem numberOf?_padLeft (hone : 1 < base) (hbase : base ≤ 16) (width number : Nat) :
    numberOf? base (Decimal.padLeft width '0' (Nat.toDigits base number)) = some number := by
  rw [← numberOf?_toDigits hone hbase number, Decimal.padLeft]
  generalize width - (Nat.toDigits base number).length = zeros
  induction zeros with
  | zero => rfl
  | succ zeros ih =>
      have hzero : Hex.value? '0' = some 0 := by decide
      rw [← ih, List.replicate_succ, List.cons_append, numberOf?, List.foldlM_cons]
      simp [hzero, show 0 < base by omega, numberOf?]

theorem length_padLeft (width : Nat) (fill : Char) (text : List Char) :
    (Decimal.padLeft width fill text).length = max width text.length := by
  rw [Decimal.padLeft, List.length_append, List.length_replicate]
  omega

end MovieAtoms.Text
