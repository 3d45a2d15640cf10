import MovieAtoms.Text.Ascii

/-!
# Tags

Every atom, brand and data format is named by a tag of four bytes. Most tags spell four ASCII
characters, but any four bytes are a tag.

Main statement: `Tag.ofUInt32_toUInt32`, by which a tag and its 32-bit number determine each other.
-/

namespace MovieAtoms

structure Tag where
  first : UInt8
  second : UInt8
  third : UInt8
  fourth : UInt8
  deriving DecidableEq, Repr

namespace Tag

/-- The tag that four characters below 256 spell. -/
def spelled (a b c d : Char) : Tag := ⟨a.toUInt8, b.toUInt8, c.toUInt8, d.toUInt8⟩

def toBytes (tag : Tag) : Bytes := [tag.first, tag.second, tag.third, tag.fourth]

def toUInt32 (tag : Tag) : UInt32 := UInt32.ofNat (Wire.number tag.toBytes)

def ofUInt32 (number : UInt32) : Tag :=
  ⟨(number >>> 24).toUInt8, (number >>> 16).toUInt8, (number >>> 8).toUInt8, number.toUInt8⟩

/-- The tag as it is shown, one character per byte. -/
def text (tag : Tag) : String := String.ofList (Text.shown tag.toBytes)

def field : Field Tag := do
  return ⟨← Field.u8, ← Field.u8, ← Field.u8, ← Field.u8⟩

@[simp] theorem length_toBytes (tag : Tag) : tag.toBytes.length = 4 := rfl

theorem eq_of_toBytes_eq {tag tag' : Tag} (h : tag.toBytes = tag'.toBytes) : tag = tag' := by
  cases tag
  cases tag'
  cases h
  rfl

theorem field_eq_some {tag : Tag} {bytes rest : Bytes} :
    field bytes = some (tag, rest) ↔ bytes = tag.toBytes ++ rest := by
  obtain ⟨a, b, c, d⟩ := tag
  simp only [field, Field.bind_eq_some, Field.pure_eq_some, Field.u8_eq_some, mk.injEq, toBytes,
    Wire.ofUInt8, Wire.bigEndian, Wire.values]
  constructor
  · rintro ⟨_, _, rfl, _, _, rfl, _, _, rfl, _, _, rfl, ⟨rfl, rfl, rfl, rfl⟩, rfl⟩
    simp
  · rintro rfl
    exact ⟨a, _, by simp, b, _, rfl, c, _, rfl, d, _, rfl, ⟨rfl, rfl, rfl, rfl⟩, rfl⟩

/-- A tag and its number determine each other. -/
theorem ofUInt32_toUInt32 (tag : Tag) : ofUInt32 tag.toUInt32 = tag := by
  obtain ⟨a, b, c, d⟩ := tag
  have ha := a.toNat_lt
  have hb := b.toNat_lt
  have hc := c.toNat_lt
  have hd := d.toNat_lt
  simp only [ofUInt32, toUInt32, toBytes, Wire.number, mk.injEq]
  refine ⟨?_, ?_, ?_, ?_⟩ <;> apply UInt8.toNat_inj.mp <;>
    simp [Wire.values, Nat.shiftRight_eq_div_pow] <;> omega

/-! ### The tags that steer decoding -/

/-- The leading atom, which says what kind of file this is. -/
def fileType : Tag := spelled 'f' 't' 'y' 'p'

/-- The brand of movies in the format's own, unbranched form. -/
def movieBrand : Tag := spelled 'q' 't' ' ' ' '

def movieHeader : Tag := spelled 'm' 'v' 'h' 'd'

def sampleTable : Tag := spelled 's' 't' 's' 'd'

/-- The data format of H.264 video. -/
def avcVideo : Tag := spelled 'a' 'v' 'c' '1'

/-- The data format of little-endian sound samples. -/
def littleEndianSound : Tag := spelled 's' 'o' 'w' 't'

def colorInfo : Tag := spelled 'c' 'o' 'l' 'r'

def avcConfig : Tag := spelled 'a' 'v' 'c' 'C'

/-- The colour parameter type whose trailing byte tells the range of the samples. -/
def rangedColor : Tag := spelled 'n' 'c' 'l' 'x'

end Tag

end MovieAtoms
