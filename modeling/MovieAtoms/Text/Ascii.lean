import MovieAtoms.Wire

/-!
# Bytes as visible text

Tags and dumps are shown one character per byte: a visible ASCII character or the space as itself,
every other byte as a full stop.
-/

namespace MovieAtoms

/-- What holds of the numbers below 256 holds of every byte. -/
theorem forall_byte {p : UInt8 → Prop} (h : ∀ number < 256, p (UInt8.ofNat number))
    (byte : UInt8) : p byte := by
  have hbyte := h byte.toNat byte.toNat_lt
  rwa [UInt8.ofNat_toNat] at hbyte

namespace Text

/-- The character that stands for a byte in tags and dumps. -/
def shownByte (byte : UInt8) : Char :=
  if 32 ≤ byte ∧ byte ≤ 126 then Char.ofNat byte.toNat else '.'

def shown (bytes : Bytes) : List Char := bytes.map shownByte

@[simp] theorem length_shown (bytes : Bytes) : (shown bytes).length = bytes.length := by
  simp [shown]

/-- The character of a byte below 128 is that code point. -/
def isAscii (c : Char) : Bool := c.toNat < 128

end Text

end MovieAtoms
