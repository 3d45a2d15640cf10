import MovieAtoms.DecodeError

/-!
# Atom headers

Every atom starts with eight bytes: its size, which counts these eight bytes too, and its tag.
-/

namespace MovieAtoms

/-- The size and tag in front of every atom. -/
structure Header where
  /-- The bytes of the whole atom, header included. -/
  size : UInt32
  tag : Tag
deriving DecidableEq, Repr

namespace Header

/-- The bytes that a header takes up. -/
def width : Nat := 8

/-- The bytes that follow the header. A size that does not even cover the header leaves none. -/
def payloadLength (header : Header) : Nat := header.size.toNat - width

/-- Refuses a size that does not cover the header itself. -/
def checked (header : Header) : Except DecodeError Header :=
  if header.size.toNat < width then .error (.invalidSize header.tag header.size.toNat)
  else .ok header

def toBytes (header : Header) : Bytes := Wire.ofUInt32 header.size ++ header.tag.toBytes

def field : Field Header := do
  return ⟨← Field.u32, ← Tag.field⟩

/-- The header that eight bytes hold. -/
def ofBytes (bytes : Bytes) : Except DecodeError Header :=
  match field bytes with
  | some (header, _) => header.checked
  | none => .error .prematureEnd

theorem field_eq_some {header : Header} {bytes rest : Bytes} :
    field bytes = some (header, rest) ↔ bytes = header.toBytes ++ rest := by
  obtain ⟨size, tag⟩ := header
  simp only [field, Field.bind_eq_some, Field.pure_eq_some, Field.u32_eq_some, Tag.field_eq_some,
    mk.injEq, toBytes]
  constructor
  · rintro ⟨_, _, rfl, _, _, rfl, ⟨rfl, rfl⟩, rfl⟩
    simp
  · rintro rfl
    exact ⟨size, _, List.append_assoc .., tag, _, rfl, ⟨rfl, rfl⟩, rfl⟩

@[simp] theorem length_toBytes (header : Header) : header.toBytes.length = width := by
  simp [toBytes, Wire.ofUInt32, width]

/-- A header and its payload make up the size. -/
theorem length_toBytes_append {header : Header} {payload : Bytes}
    (hsize : width ≤ header.size.toNat) (hpayload : payload.length = header.payloadLength) :
    (header.toBytes ++ payload).length = header.size.toNat := by
  rw [List.length_append, length_toBytes, hpayload, payloadLength, Nat.add_sub_cancel' hsize]

/-- The size stands in front of the tag. -/
theorem number_take_toBytes (header : Header) (tail : Bytes) :
    Wire.number ((header.toBytes ++ tail).take 4) = header.size.toNat := by
  have hfront : (header.toBytes ++ tail).take 4 = Wire.ofUInt32 header.size := rfl
  rw [hfront, Wire.number_ofUInt32]

theorem checked_eq_ok {header : Header} (h : width ≤ header.size.toNat) :
    header.checked = .ok header := if_neg (Nat.not_lt.mpr h)

theorem checked_eq_error {header : Header} (h : header.size.toNat < width) :
    header.checked = .error (.invalidSize header.tag header.size.toNat) := if_pos h

theorem ofBytes_toBytes (header : Header) : ofBytes header.toBytes = header.checked := by
  have hfield : field header.toBytes = some (header, []) :=
    field_eq_some.mpr (List.append_nil _).symm
  rw [ofBytes, hfield]

/-- Any eight bytes hold a header. -/
theorem exists_eq_toBytes_append {bytes : Bytes} (h : width ≤ bytes.length) :
    ∃ header : Header, ∃ rest, bytes = header.toBytes ++ rest := by
  match bytes, h with
  | a :: b :: c :: d :: e :: f :: g :: i :: rest, _ =>
      have hlt := Wire.number_lt [a, b, c, d]
      have hsize : Wire.ofUInt32 (UInt32.ofNat (Wire.number [a, b, c, d])) = [a, b, c, d] := by
        rw [Wire.ofUInt32, UInt32.toNat_ofNat', Nat.mod_eq_of_lt (by simpa [Wire.values] using hlt)]
        exact Wire.bigEndian_number [a, b, c, d]
      refine ⟨⟨UInt32.ofNat (Wire.number [a, b, c, d]), ⟨e, f, g, i⟩⟩, rest, ?_⟩
      rw [toBytes, hsize]
      rfl

end Header

end MovieAtoms
