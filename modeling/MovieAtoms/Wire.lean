/-!
# Big-endian fields

Atoms store their fields one after the other, most significant byte first. A `Field` takes one
value off the front of captured bytes and leaves what follows, or fails when too few bytes are
left. Beside the fields stand the bytes that their values are written as.

Main statements: `Field.u8_eq_some` to `Field.i32_eq_some` and `Field.block_eq_some`, by which each
field takes exactly the written form of its value off the front.
-/

namespace MovieAtoms

/-- The data of a movie file or of a part of it, in file order. -/
abbrev Bytes := List UInt8

namespace Wire

/-- How many numbers so many bytes can spell. -/
def values (width : Nat) : Nat := Nat.pow 256 width

/-- The low `width` bytes of a number, most significant first. -/
def bigEndian : (width value : Nat) → Bytes
  | 0, _ => []
  | width + 1, value => UInt8.ofNat (value / values width) :: bigEndian width value

/-- The number that bytes spell, most significant first. -/
def number : Bytes → Nat
  | [] => 0
  | byte :: rest => byte.toNat * values rest.length + number rest

theorem values_succ (width : Nat) : values (width + 1) = values width * 256 := rfl

theorem values_add (first second : Nat) :
    values (first + second) = values first * values second := Nat.pow_add 256 first second

theorem values_pos (width : Nat) : 0 < values width := Nat.pow_pos (by decide)

@[simp] theorem length_bigEndian (width value : Nat) : (bigEndian width value).length = width := by
  induction width with
  | zero => rfl
  | succ width ih => simp [bigEndian, ih]

theorem number_lt (bytes : Bytes) : number bytes < values bytes.length := by
  induction bytes with
  | nil => exact values_pos 0
  | cons byte rest ih =>
      have hbyte : byte.toNat ≤ 255 := Nat.le_of_lt_succ byte.toNat_lt
      have hmul := Nat.mul_le_mul_right (values rest.length) hbyte
      rw [number, List.length_cons, values_succ]
      omega

theorem number_bigEndian (width value : Nat) :
    number (bigEndian width value) = value % values width := by
  induction width with
  | zero => exact (Nat.mod_one value).symm
  | succ width ih =>
      have hbyte : (UInt8.ofNat (value / values width)).toNat = value / values width % 256 := by
        simp
      rw [bigEndian, number, ih, hbyte, length_bigEndian, values_succ, Nat.mod_mul, Nat.mul_comm,
        Nat.add_comm]

/-- Only the low bytes of a number are written. -/
theorem bigEndian_add_mul (width value high : Nat) {above : Nat} (h : width ≤ above) :
    bigEndian width (high * values above + value) = bigEndian width value := by
  induction width with
  | zero => rfl
  | succ width ih =>
      rw [bigEndian, bigEndian, ih (by omega)]
      congr 1
      obtain ⟨gap, rfl⟩ : ∃ gap, above = width + (gap + 1) := ⟨above - width - 1, by omega⟩
      have hsplit : high * values (width + (gap + 1)) + value =
          value + values width * (high * values gap * 256) := by
        rw [values_add, values_succ, Nat.add_comm]
        ac_rfl
      have hdiv : (high * values (width + (gap + 1)) + value) / values width =
          value / values width + high * values gap * 256 := by
        rw [hsplit, Nat.add_mul_div_left _ _ (values_pos width)]
      apply UInt8.toNat_inj.mp
      simp [hdiv]

theorem bigEndian_number (bytes : Bytes) : bigEndian bytes.length (number bytes) = bytes := by
  induction bytes with
  | nil => rfl
  | cons byte rest ih =>
      have hpos := values_pos rest.length
      rw [List.length_cons, bigEndian, number, bigEndian_add_mul _ _ _ (Nat.le_refl _), ih]
      congr 1
      rw [Nat.mul_comm, Nat.mul_add_div hpos, Nat.div_eq_of_lt (number_lt rest)]
      simp

end Wire

/-- A run of bytes whose length the format fixes. -/
structure Block (size : Nat) where
  bytes : Bytes
  length_bytes : bytes.length = size
  deriving DecidableEq, Repr

/-- Takes one value off the front of captured bytes. -/
abbrev Field (α : Type) := StateT Bytes Option α

namespace Field

def bytes (count : Nat) : Field Bytes := fun rest =>
  if count ≤ rest.length then some (rest.take count, rest.drop count) else none

theorem bytes_eq_some {count : Nat} {rest front left : Bytes} :
    bytes count rest = some (front, left) ↔ rest = front ++ left ∧ front.length = count := by
  unfold bytes
  constructor
  · intro h
    split at h
    · rename_i hle
      simp only [Option.some.injEq, Prod.mk.injEq] at h
      obtain ⟨rfl, rfl⟩ := h
      exact ⟨(List.take_append_drop count rest).symm, List.length_take_of_le hle⟩
    · simp at h
  · rintro ⟨rfl, rfl⟩
    simp

def unsigned (width : Nat) : Field Nat := Wire.number <$> bytes width

def u8 : Field UInt8 := UInt8.ofNat <$> unsigned 1

def u16 : Field UInt16 := UInt16.ofNat <$> unsigned 2

def u32 : Field UInt32 := UInt32.ofNat <$> unsigned 4

/-- Signed fields hold the same bits in two's complement. -/
def i16 : Field Int16 := UInt16.toInt16 <$> u16

def i32 : Field Int32 := UInt32.toInt32 <$> u32

/-- A run of bytes whose length the format fixes. -/
def block (size : Nat) : Field (Block size) := fun rest =>
  if h : size ≤ rest.length then
    some (⟨rest.take size, List.length_take_of_le h⟩, rest.drop size)
  else none

/-- So many signed numbers of four bytes each. -/
def ints : (count : Nat) → Field (List Int32)
  | 0 => return []
  | count + 1 => do
      let first ← i32
      return first :: (← ints count)

end Field

/-! ### Written forms -/

namespace Wire

def ofUInt8 (value : UInt8) : Bytes := bigEndian 1 value.toNat

def ofUInt16 (value : UInt16) : Bytes := bigEndian 2 value.toNat

def ofUInt32 (value : UInt32) : Bytes := bigEndian 4 value.toNat

def ofInt16 (value : Int16) : Bytes := ofUInt16 value.toUInt16

def ofInt32 (value : Int32) : Bytes := ofUInt32 value.toUInt32

theorem number_ofUInt32 (value : UInt32) : number (ofUInt32 value) = value.toNat := by
  rw [ofUInt32, number_bigEndian]
  exact Nat.mod_eq_of_lt value.toNat_lt

end Wire

/-! ### Fields take written forms -/

namespace Field

theorem unsigned_eq_some {width value : Nat} {bytes rest : Bytes} :
    unsigned width bytes = some (value, rest) ↔
      bytes = Wire.bigEndian width value ++ rest ∧ value < Wire.values width := by
  have hmap : unsigned width bytes =
      (Field.bytes width bytes).map fun taken => (Wire.number taken.1, taken.2) := by
    unfold unsigned
    cases h : Field.bytes width bytes <;>
      simp [Functor.map, StateT.map, h]
  rw [hmap, Option.map_eq_some_iff]
  constructor
  · rintro ⟨⟨front, left⟩, hfront, htaken⟩
    obtain ⟨rfl, rfl⟩ := bytes_eq_some.mp hfront
    cases htaken
    exact ⟨by rw [Wire.bigEndian_number], Wire.number_lt front⟩
  · rintro ⟨rfl, hlt⟩
    exact ⟨(Wire.bigEndian width value, rest), bytes_eq_some.mpr ⟨rfl, by simp⟩,
      by simp [Wire.number_bigEndian, Nat.mod_eq_of_lt hlt]⟩

theorem map_eq_some {α β : Type} {f : α → β} {field : Field α} {bytes rest : Bytes} {value : β} :
    (f <$> field : Field β) bytes = some (value, rest) ↔
      ∃ raw, field bytes = some (raw, rest) ∧ f raw = value := by
  cases h : field bytes with
  | none => simp [Functor.map, StateT.map, h]
  | some taken =>
      obtain ⟨raw, left⟩ := taken
      simp only [Functor.map, StateT.map, h, Option.bind_eq_bind, Option.bind_some,
        Option.pure_def, Option.some.injEq, Prod.mk.injEq]
      constructor
      · rintro ⟨rfl, rfl⟩
        exact ⟨raw, ⟨rfl, rfl⟩, rfl⟩
      · rintro ⟨_, ⟨rfl, rfl⟩, rfl⟩
        exact ⟨rfl, rfl⟩

theorem bind_eq_some {α β : Type} {field : Field α} {next : α → Field β} {bytes rest : Bytes}
    {value : β} :
    (field >>= next : Field β) bytes = some (value, rest) ↔
      ∃ first left, field bytes = some (first, left) ∧ next first left = some (value, rest) := by
  cases h : field bytes with
  | none => simp [bind, StateT.bind, h]
  | some taken =>
      obtain ⟨first, left⟩ := taken
      simp only [bind, StateT.bind, h, Option.bind_some, Option.some.injEq, Prod.mk.injEq]
      exact ⟨fun hnext => ⟨first, left, ⟨rfl, rfl⟩, hnext⟩,
        fun ⟨_, _, ⟨hfirst, hleft⟩, hnext⟩ => hfirst ▸ hleft ▸ hnext⟩

/-- The same with the later fields in front: in this order the simplifier drops the values of a long
    record one by one, from the last field to the first. -/
theorem bind_eq_some_inner {α β : Type} {field : Field α} {next : α → Field β}
    {bytes rest : Bytes} {value : β} :
    (field >>= next : Field β) bytes = some (value, rest) ↔
      ∃ first left, next first left = some (value, rest) ∧ field bytes = some (first, left) := by
  simp only [bind_eq_some, and_comm]

theorem pure_eq_some {α : Type} {first value : α} {bytes rest : Bytes} :
    (pure first : Field α) bytes = some (value, rest) ↔ first = value ∧ bytes = rest := by
  have hpure : (pure first : Field α) bytes = some (first, bytes) := rfl
  rw [hpure, Option.some.injEq, Prod.mk.injEq]

theorem u8_eq_some {value : UInt8} {bytes rest : Bytes} :
    u8 bytes = some (value, rest) ↔ bytes = Wire.ofUInt8 value ++ rest := by
  simp only [u8, map_eq_some, unsigned_eq_some, Wire.ofUInt8]
  constructor
  · rintro ⟨raw, ⟨rfl, hlt⟩, rfl⟩
    rw [UInt8.toNat_ofNat', Nat.mod_eq_of_lt (by simpa [Wire.values] using hlt)]
  · rintro rfl
    exact ⟨value.toNat, ⟨rfl, value.toNat_lt⟩, UInt8.ofNat_toNat⟩

theorem u16_eq_some {value : UInt16} {bytes rest : Bytes} :
    u16 bytes = some (value, rest) ↔ bytes = Wire.ofUInt16 value ++ rest := by
  simp only [u16, map_eq_some, unsigned_eq_some, Wire.ofUInt16]
  constructor
  · rintro ⟨raw, ⟨rfl, hlt⟩, rfl⟩
    rw [UInt16.toNat_ofNat', Nat.mod_eq_of_lt (by simpa [Wire.values] using hlt)]
  · rintro rfl
    exact ⟨value.toNat, ⟨rfl, value.toNat_lt⟩, UInt16.ofNat_toNat⟩

theorem u32_eq_some {value : UInt32} {bytes rest : Bytes} :
    u32 bytes = some (value, rest) ↔ bytes = Wire.ofUInt32 value ++ rest := by
  simp only [u32, map_eq_some, unsigned_eq_some, Wire.ofUInt32]
  constructor
  · rintro ⟨raw, ⟨rfl, hlt⟩, rfl⟩
    rw [UInt32.toNat_ofNat', Nat.mod_eq_of_lt (by simpa [Wire.values] using hlt)]
  · rintro rfl
    exact ⟨value.toNat, ⟨rfl, value.toNat_lt⟩, UInt32.ofNat_toNat⟩

theorem i16_eq_some {value : Int16} {bytes rest : Bytes} :
    i16 bytes = some (value, rest) ↔ bytes = Wire.ofInt16 value ++ rest := by
  simp only [i16, map_eq_some, u16_eq_some, Wire.ofInt16]
  constructor
  · rintro ⟨raw, rfl, rfl⟩
    rfl
  · rintro rfl
    exact ⟨value.toUInt16, rfl, rfl⟩

theorem i32_eq_some {value : Int32} {bytes rest : Bytes} :
    i32 bytes = some (value, rest) ↔ bytes = Wire.ofInt32 value ++ rest := by
  simp only [i32, map_eq_some, u32_eq_some, Wire.ofInt32]
  constructor
  · rintro ⟨raw, rfl, rfl⟩
    rfl
  · rintro rfl
    exact ⟨value.toUInt32, rfl, rfl⟩

theorem block_eq_some {size : Nat} {value : Block size} {bytes rest : Bytes} :
    block size bytes = some (value, rest) ↔ bytes = value.bytes ++ rest := by
  obtain ⟨front, hfront⟩ := value
  simp only [block]
  constructor
  · intro h
    split at h
    · simp only [Option.some.injEq, Prod.mk.injEq, Block.mk.injEq] at h
      obtain ⟨rfl, rfl⟩ := h
      exact (List.take_append_drop size bytes).symm
    · simp at h
  · rintro rfl
    subst hfront
    simp

/-- Drops what an earlier field leaves where the later ones tell what that is. -/
theorem exists_left_eq {α : Type} {p : α → Prop} {written : α → Bytes} {q : Bytes → Prop} :
    (∃ left, (∃ value, p value ∧ left = written value) ∧ q left) ↔
      ∃ value, p value ∧ q (written value) := by
  constructor
  · rintro ⟨_, ⟨value, hvalue, rfl⟩, hq⟩
    exact ⟨value, hvalue, hq⟩
  · rintro ⟨value, hvalue, hq⟩
    exact ⟨_, ⟨value, hvalue, rfl⟩, hq⟩

end Field

end MovieAtoms
