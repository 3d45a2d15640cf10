/-!
# Decimal numbers with fixed places

Numbers are shown in decimal: whole ones padded with zeros to a least width, fractions rounded to a
fixed number of places, where a half goes to the even neighbour.

Main statement: `roundHalfEven_within`, by which rounding moves a quotient by at most one half.
-/

namespace MovieAtoms.Decimal

/-- Fills a text up to a least width on the left. -/
def padLeft (width : Nat) (fill : Char) (text : List Char) : List Char :=
  List.replicate (width - text.length) fill ++ text

/-- A whole number in decimal, with zeros in front up to a least width. -/
def padded (width number : Nat) : List Char := padLeft width '0' (Nat.toDigits 10 number)

/-- The whole number nearest to a quotient; a half goes to the even neighbour. -/
def roundHalfEven (numerator denominator : Nat) : Nat :=
  let whole := numerator / denominator
  let twice := 2 * (numerator % denominator)
  if denominator < twice ∨ denominator = twice ∧ whole % 2 = 1 then whole + 1 else whole

/-- A quotient rounded to a fixed number of places, at least one. -/
def fixed (places numerator denominator : Nat) : String :=
  let unit := Nat.pow 10 places
  let scaled := roundHalfEven (numerator * unit) denominator
  String.ofList (Nat.toDigits 10 (scaled / unit) ++ '.' :: padded places (scaled % unit))

theorem roundHalfEven_within (numerator : Nat) {denominator : Nat} (h : 0 < denominator) :
    2 * numerator ≤ 2 * (roundHalfEven numerator denominator * denominator) + denominator ∧
      2 * (roundHalfEven numerator denominator * denominator) ≤ 2 * numerator + denominator := by
  have hdiv := Nat.div_add_mod numerator denominator
  have hmod := Nat.mod_lt numerator h
  rw [Nat.mul_comm] at hdiv
  simp only [roundHalfEven]
  split
  · rw [Nat.add_mul]
    omega
  · omega

end MovieAtoms.Decimal
