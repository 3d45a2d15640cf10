import MovieAtoms.Proofs.Payload.Width
import MovieAtoms.Proofs.Walk.Yields

/-!
# Payloads of fixed layout

The fields of a movie header have fixed places, and so have those of a file type, up to its list of
brands. So the length of a payload alone decides whether it is accepted, and what is accepted is
accepted without loss: writing the fields of the record one after the other gives back the bytes
that they were read from. Main statement: `decode_fixedLayouts`, which says this of both records
together with what is wrong with the payloads that are refused.
-/

namespace MovieAtoms

open MovieAtoms.Field

/-! ### Movie headers -/

theorem Matrix.takes_field : Matrix.field.Takes 36 := by
  change Matrix.field.Takes (4 + (4 + (4 + (4 + (4 + (4 + (4 + (4 + (4 + 0)))))))))
  refine takes_i32.bind fun _ => takes_i32.bind fun _ => takes_i32.bind fun _ => ?_
  refine takes_i32.bind fun _ => takes_i32.bind fun _ => takes_i32.bind fun _ => ?_
  exact takes_i32.bind fun _ => takes_i32.bind fun _ => takes_i32.bind fun _ => takes_pure _

namespace MovieHeader

variable {header : Header} {movie : MovieHeader} {bytes : Bytes}

theorem takes_timestamp : timestamp.Takes 4 := takes_u32.map _

theorem takes_fields (header : Header) : (fields header).Takes 100 := by
  have hwidth : 100 = 1 + (3 + (4 + (4 + (4 + (4 + (4 + (2 + (10 + (36 + (4 + (4 + (4 + (4 + (4 +
      (4 + (4 + 0)))))))))))))))) := rfl
  rw [hwidth]
  -- the version and the flags, the two times, the time scale and the duration
  refine takes_u8.bind fun _ => (takes_block 3).bind fun _ => ?_
  refine takes_timestamp.bind fun _ => takes_timestamp.bind fun _ => ?_
  refine takes_u32.bind fun _ => takes_u32.bind fun _ => ?_
  -- the rate, the volume, the reserved bytes and the matrix
  refine takes_u32.bind fun _ => takes_u16.bind fun _ => (takes_block 10).bind fun _ => ?_
  refine Matrix.takes_field.bind fun _ => ?_
  -- preview, poster, selection, current time and next track
  refine takes_u32.bind fun _ => takes_u32.bind fun _ => takes_u32.bind fun _ => ?_
  refine takes_u32.bind fun _ => takes_u32.bind fun _ => takes_u32.bind fun _ => ?_
  exact takes_u32.bind fun _ => takes_pure _

theorem decode_of_short (hshort : bytes.length < 100) :
    decode header bytes = .error (.layout (.truncated Tag.movieHeader)) := by
  rw [decode, Payload.fixedFields_of_short (takes_fields header) hshort]
  rfl

theorem exists_decode_eq_ok (henough : 100 ≤ bytes.length) :
    ∃ movie, decode header bytes = .ok movie := by
  obtain ⟨movie, hmovie⟩ := (takes_fields header).enough bytes henough
  refine ⟨movie, ?_⟩
  rw [decode, Payload.fixedFields_eq_ok.mpr hmovie]
  rfl

theorem payload_of_decode_eq_ok (h : decode header bytes = .ok movie) :
    movie.payload = bytes.take 100 := by
  obtain ⟨-, rest, hbytes⟩ := decode_eq_ok.mp h
  rw [hbytes, ← movie.length_payload, List.take_left]

/-- Payloads of at least a hundred bytes are accepted, and the first hundred are kept. -/
structure DecodesExactly (header : Header) (bytes : Bytes) : Prop where
  captured : bytes.length = header.payloadLength → ∀ tail ending,
    (Walk.movieHeader header).Yields (bytes ++ tail) ending
      (Logged.ofExcept (decode header bytes)) tail
  accepted : (∃ movie, decode header bytes = .ok movie) ↔ 100 ≤ bytes.length
  written : ∀ movie, decode header bytes = .ok movie →
    movie.header = header ∧ movie.payload = bytes.take 100
  short : bytes.length < 100 →
    decode header bytes = .error (.layout (.truncated Tag.movieHeader))
  /-- A record is read back from its written form, whatever follows. -/
  readBack : ∀ movie : MovieHeader, decode movie.header (movie.payload ++ bytes) = .ok movie

theorem decodesExactly (header : Header) (bytes : Bytes) : DecodesExactly header bytes where
  captured := fun hlength _ _ =>
    (Walk.yields_payload hlength).bind (Walk.yields_ofLogged _) rfl
  accepted := by
    refine ⟨?_, exists_decode_eq_ok⟩
    rintro ⟨movie, hmovie⟩
    refine Nat.le_of_not_lt fun hshort => ?_
    rw [decode_of_short hshort] at hmovie
    cases hmovie
  written := fun _ h => ⟨(decode_eq_ok.mp h).1, payload_of_decode_eq_ok h⟩
  short := decode_of_short
  readBack := fun movie => decode_eq_ok.mpr ⟨rfl, bytes, rfl⟩

end MovieHeader

/-! ### File types -/

namespace FileType

variable {bytes : Bytes}

theorem takes_fixedFields : fixedFields.Takes 8 := by
  change fixedFields.Takes (4 + (4 + 0))
  exact Tag.takes_field.bind fun _ => takes_u32.bind fun _ => takes_pure _

theorem length_wholeTags (bytes : Bytes) : (wholeTags bytes).length = bytes.length / 4 := by
  obtain ⟨ragged, hbytes, hshort⟩ := exists_eq_wholeTags_append bytes
  have hlength := congrArg List.length hbytes
  rw [List.length_append, length_flatMap_toBytes] at hlength
  omega

theorem decode_of_short (header : Header) (hshort : bytes.length < 8) :
    decode header bytes = .error (.layout (.truncated Tag.fileType)) := by
  rw [decode, Payload.fixedFields_of_short takes_fixedFields hshort]

/-- Behind the fixed fields only the number of bytes matters. -/
theorem decode_of_enough (header : Header) (henough : 8 ≤ bytes.length) :
    ∃ fileType, decode header bytes =
      if 4 ∣ bytes.length then .ok fileType
      else .error (.layout (.brandCount ((bytes.length - 8) / 4 + 1) ((bytes.length - 8) / 4))) := by
  obtain ⟨⟨majorBrand, minorVersion⟩, hfields⟩ := takes_fixedFields.enough bytes henough
  refine ⟨⟨header, majorBrand, minorVersion, wholeTags (bytes.drop 8)⟩, ?_⟩
  rw [decode, Payload.fixedFields_eq_ok.mpr hfields]
  simp only [length_wholeTags, declaredBrands, List.length_drop]
  by_cases hwhole : 4 ∣ bytes.length
  · rw [if_pos hwhole, if_pos (by omega)]
  · have hdeclared : (bytes.length - 8 + 3) / 4 = (bytes.length - 8) / 4 + 1 := by omega
    rw [if_neg hwhole, hdeclared, if_neg (by omega)]

/-- Payloads of at least eight bytes are accepted if they end with a whole brand, and all of their
    bytes are kept. -/
structure DecodesExactly (header : Header) (bytes : Bytes) : Prop where
  captured : bytes.length = header.payloadLength → ∀ tail ending,
    (Walk.fileType header).Yields (bytes ++ tail) ending
      (Logged.ofExcept (decode header bytes)) tail
  accepted : (∃ fileType, decode header bytes = .ok fileType) ↔
    8 ≤ bytes.length ∧ 4 ∣ bytes.length
  written : ∀ fileType, decode header bytes = .ok fileType →
    fileType.header = header ∧ fileType.payload = bytes
  short : bytes.length < 8 →
    decode header bytes = .error (.layout (.truncated Tag.fileType))
  ragged : 8 ≤ bytes.length → ¬4 ∣ bytes.length →
    ∃ declared decoded, decode header bytes = .error (.layout (.brandCount declared decoded)) ∧
      declared = decoded + 1 ∧ decoded = (bytes.length - 8) / 4
  /-- A record is read back from its written form. -/
  readBack : ∀ fileType : FileType, decode fileType.header fileType.payload = .ok fileType

theorem decodesExactly (header : Header) (bytes : Bytes) : DecodesExactly header bytes where
  captured := fun hlength _ _ =>
    (Walk.yields_payload hlength).bind (Walk.yields_ofLogged _) rfl
  accepted := by
    by_cases henough : 8 ≤ bytes.length
    · obtain ⟨fileType, hdecode⟩ := decode_of_enough header henough
      by_cases hwhole : 4 ∣ bytes.length <;> simp [hdecode, henough, hwhole]
    · simp [decode_of_short header (Nat.lt_of_not_le henough), henough]
  written := by
    intro fileType h
    obtain ⟨hheader, hbytes⟩ := decode_eq_ok.mp h
    exact ⟨hheader, hbytes.symm⟩
  short := decode_of_short header
  ragged := by
    intro henough hragged
    obtain ⟨fileType, hdecode⟩ := decode_of_enough header henough
    rw [if_neg hragged] at hdecode
    exact ⟨_, _, hdecode, rfl, rfl⟩
  readBack := fun fileType => decode_eq_ok.mpr ⟨rfl, rfl⟩

end FileType

/-- The decoders of both layouts accept exactly the payloads that are long enough and lose none of
    their bytes but those behind the last field of a movie header. -/
theorem decode_fixedLayouts (header : Header) (bytes : Bytes) :
    MovieHeader.DecodesExactly header bytes ∧ FileType.DecodesExactly header bytes :=
  ⟨MovieHeader.decodesExactly header bytes, FileType.decodesExactly header bytes⟩

end MovieAtoms
