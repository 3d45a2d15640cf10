import MovieAtoms.Payload

/-!
# File types

The leading atom of a movie file names the brand that the file was made for and the brands that it
is compatible with. The brands fill the payload after the two fixed fields.

Main statement: `decode_eq_ok`, by which decoding accepts exactly the written forms.
-/

namespace MovieAtoms

/-- The leading atom of a movie file. -/
structure FileType where
  header : Header
  majorBrand : Tag
  minorVersion : UInt32
  compatibleBrands : List Tag
deriving DecidableEq, Repr

namespace FileType

/-- Whether one of the brands is that of movies. -/
def isMovie (fileType : FileType) : Bool :=
  fileType.majorBrand = Tag.movieBrand || fileType.compatibleBrands.contains Tag.movieBrand

/-- The whole tags at the front of bytes. Up to three bytes may be left over. -/
def wholeTags : Bytes → List Tag
  | a :: b :: c :: d :: rest => ⟨a, b, c, d⟩ :: wholeTags rest
  | _ => []

/-- The number of brands that bytes are meant for: a ragged end counts as one more. -/
def declaredBrands (bytes : Bytes) : Nat := (bytes.length + 3) / 4

def fixedFields : Field (Tag × UInt32) := do
  return (← Tag.field, ← Field.u32)

def decode (header : Header) (payload : Bytes) : Except DecodeError FileType :=
  match Payload.fixedFields Tag.fileType fixedFields payload with
  | .error error => .error error
  | .ok ((majorBrand, minorVersion), rest) =>
      let brands := wholeTags rest
      if brands.length = declaredBrands rest then
        .ok ⟨header, majorBrand, minorVersion, brands⟩
      else .error (.layout (.brandCount (declaredBrands rest) brands.length))

def payload (fileType : FileType) : Bytes :=
  fileType.majorBrand.toBytes ++ Wire.ofUInt32 fileType.minorVersion ++
    fileType.compatibleBrands.flatMap Tag.toBytes

def toBytes (fileType : FileType) : Bytes := fileType.header.toBytes ++ fileType.payload

/-- A file type that states its own tag and size. -/
structure WellFormed (fileType : FileType) : Prop where
  tag : fileType.header.tag = Tag.fileType
  size : fileType.header.size.toNat = Header.width + fileType.payload.length

theorem WellFormed.length_toBytes {fileType : FileType} (h : fileType.WellFormed) :
    fileType.toBytes.length = fileType.header.size.toNat := by
  rw [toBytes, List.length_append, Header.length_toBytes, h.size]

theorem wholeTags_flatMap (tags : List Tag) : wholeTags (tags.flatMap Tag.toBytes) = tags := by
  induction tags with
  | nil => rfl
  | cons tag tags ih => simp [Tag.toBytes, wholeTags, ih]

/-- Bytes are their whole tags and up to three bytes more. -/
theorem exists_eq_wholeTags_append (bytes : Bytes) :
    ∃ ragged, bytes = (wholeTags bytes).flatMap Tag.toBytes ++ ragged ∧ ragged.length < 4 := by
  match bytes with
  | a :: b :: c :: d :: rest =>
      obtain ⟨ragged, hrest, hshort⟩ := exists_eq_wholeTags_append rest
      refine ⟨ragged, ?_, hshort⟩
      rw [wholeTags, List.flatMap_cons, List.append_assoc, ← hrest]
      rfl
  | [] | [_] | [_, _] | [_, _, _] => exact ⟨_, rfl, by simp⟩

theorem length_flatMap_toBytes (tags : List Tag) :
    (tags.flatMap Tag.toBytes).length = 4 * tags.length := by
  induction tags with
  | nil => rfl
  | cons tag tags ih =>
      rw [List.flatMap_cons, List.length_append, ih, Tag.length_toBytes, List.length_cons]
      omega

theorem wholeTags_length_eq_declaredBrands {bytes : Bytes} :
    (wholeTags bytes).length = declaredBrands bytes ↔
      bytes = (wholeTags bytes).flatMap Tag.toBytes := by
  obtain ⟨ragged, hbytes, hshort⟩ := exists_eq_wholeTags_append bytes
  have hlength := congrArg List.length hbytes
  rw [List.length_append, length_flatMap_toBytes] at hlength
  unfold declaredBrands
  constructor
  · intro h
    have hragged : ragged = [] := List.eq_nil_of_length_eq_zero (by omega)
    rw [hragged, List.append_nil] at hbytes
    exact hbytes
  · intro h
    have hwhole := congrArg List.length h
    rw [length_flatMap_toBytes] at hwhole
    omega

theorem fixedFields_eq_some {majorBrand : Tag} {minorVersion : UInt32} {bytes rest : Bytes} :
    fixedFields bytes = some ((majorBrand, minorVersion), rest) ↔
      bytes = majorBrand.toBytes ++ (Wire.ofUInt32 minorVersion ++ rest) := by
  simp only [fixedFields, Field.bind_eq_some, Field.pure_eq_some, Tag.field_eq_some,
    Field.u32_eq_some, Prod.mk.injEq]
  constructor
  · rintro ⟨_, _, rfl, _, _, rfl, ⟨rfl, rfl⟩, rfl⟩
    rfl
  · rintro rfl
    exact ⟨majorBrand, _, rfl, minorVersion, rest, rfl, ⟨rfl, rfl⟩, rfl⟩

/-- Decoding accepts exactly the written forms. -/
theorem decode_eq_ok {header : Header} {bytes : Bytes} {fileType : FileType} :
    decode header bytes = .ok fileType ↔
      fileType.header = header ∧ bytes = fileType.payload := by
  obtain ⟨own, majorBrand, minorVersion, brands⟩ := fileType
  simp only [payload, List.append_assoc]
  constructor
  · intro h
    unfold decode Payload.fixedFields at h
    rcases hfields : fixedFields bytes with _ | ⟨⟨major, minor⟩, rest⟩
    · simp [hfields] at h
    · rw [hfields] at h
      simp only at h
      split at h
      · rename_i hwhole
        cases h
        refine ⟨rfl, ?_⟩
        rw [fixedFields_eq_some.mp hfields, ← wholeTags_length_eq_declaredBrands.mp hwhole]
      · cases h
  · rintro ⟨rfl, rfl⟩
    have hfields : fixedFields (majorBrand.toBytes ++ (Wire.ofUInt32 minorVersion ++
        brands.flatMap Tag.toBytes)) =
          some ((majorBrand, minorVersion), brands.flatMap Tag.toBytes) :=
      fixedFields_eq_some.mpr rfl
    have hwhole := wholeTags_flatMap brands
    have hcount := wholeTags_length_eq_declaredBrands.mpr
      (show brands.flatMap Tag.toBytes = _ by rw [hwhole])
    rw [hwhole] at hcount
    unfold decode Payload.fixedFields
    rw [hfields]
    simp only [hwhole]
    exact if_pos hcount

end FileType

end MovieAtoms
