import MovieAtoms.Atom.SampleTable

/-!
# Fields of fixed width

Most fields take a number of bytes that the format fixes. Such a field fails only where fewer bytes
are left, whatever these bytes are. `Field.Takes` says so; it is closed under the ways in which
fields are put together, so the width of a record is the sum of the widths of its parts. Main
statements: `VideoDescription.takes_fields`, `SampleTable.takes_fixedFields` and
`ColorInfo.takes_fixedFields`. For the header in front of an inner atom this tells, together with the
atom's size, whether a payload splits and in which of three ways it fails to (`Payload.front`).
-/

namespace MovieAtoms

namespace Field

/-- The field takes exactly so many bytes where they are there, and fails where they are not. -/
structure Takes (field : Field α) (width : Nat) : Prop where
  enough : ∀ bytes : Bytes, width ≤ bytes.length →
    ∃ value, field bytes = some (value, bytes.drop width)
  short : ∀ bytes : Bytes, bytes.length < width → field bytes = none

variable {field : Field α} {next : α → Field β} {width later : Nat}

/-! ### Putting fields together -/

theorem takes_pure (value : α) : (pure value : Field α).Takes 0 where
  enough := fun _ _ => ⟨value, rfl⟩
  short := fun _ hshort => absurd hshort (Nat.not_lt_zero _)

theorem Takes.bind (h : field.Takes width) (hnext : ∀ value, (next value).Takes later) :
    (field >>= next).Takes (width + later) where
  enough := by
    intro bytes henough
    obtain ⟨first, hfirst⟩ := h.enough bytes (by omega)
    have hleft : later ≤ (bytes.drop width).length := by
      rw [List.length_drop]
      omega
    obtain ⟨value, hvalue⟩ := (hnext first).enough _ hleft
    rw [List.drop_drop] at hvalue
    exact ⟨value, bind_eq_some.mpr ⟨first, _, hfirst, hvalue⟩⟩
  short := by
    intro bytes hshort
    by_cases hfront : bytes.length < width
    · simp [Bind.bind, StateT.bind, h.short bytes hfront]
    · obtain ⟨first, hfirst⟩ := h.enough bytes (Nat.le_of_not_lt hfront)
      have hleft : (bytes.drop width).length < later := by
        rw [List.length_drop]
        omega
      simp [Bind.bind, StateT.bind, hfirst, (hnext first).short _ hleft]

theorem Takes.map (h : field.Takes width) (f : α → β) : (f <$> field).Takes width where
  enough := by
    intro bytes henough
    obtain ⟨value, hvalue⟩ := h.enough bytes henough
    exact ⟨f value, map_eq_some.mpr ⟨value, hvalue, rfl⟩⟩
  short := by
    intro bytes hshort
    simp [Functor.map, StateT.map, h.short bytes hshort]

/-! ### Single fields -/

theorem takes_bytes (count : Nat) : (bytes count).Takes count where
  enough := fun rest henough => ⟨rest.take count, if_pos henough⟩
  short := fun _ hshort => if_neg (Nat.not_le.mpr hshort)

theorem takes_u8 : u8.Takes 1 := ((takes_bytes 1).map _).map _

theorem takes_u16 : u16.Takes 2 := ((takes_bytes 2).map _).map _

theorem takes_u32 : u32.Takes 4 := ((takes_bytes 4).map _).map _

theorem takes_i16 : i16.Takes 2 := takes_u16.map _

theorem takes_i32 : i32.Takes 4 := takes_u32.map _

theorem takes_block (size : Nat) : (block size).Takes size where
  enough := fun _ henough => ⟨_, dif_pos henough⟩
  short := fun _ hshort => dif_neg (Nat.not_le.mpr hshort)

end Field

open MovieAtoms.Field

theorem Tag.takes_field : Tag.field.Takes 4 := by
  change Tag.field.Takes (1 + (1 + (1 + (1 + 0))))
  refine takes_u8.bind fun _ => takes_u8.bind fun _ => ?_
  exact takes_u8.bind fun _ => takes_u8.bind fun _ => takes_pure _

theorem Header.takes_field : Header.field.Takes Header.width := by
  change Header.field.Takes (4 + (4 + 0))
  exact takes_u32.bind fun _ => Tag.takes_field.bind fun _ => takes_pure _

/-! ### The fixed fields of records -/

theorem ColorInfo.takes_fixedFields : ColorInfo.fixedFields.Takes 10 := by
  change ColorInfo.fixedFields.Takes (4 + (2 + (2 + (2 + 0))))
  refine Tag.takes_field.bind fun _ => takes_u16.bind fun _ => ?_
  exact takes_u16.bind fun _ => takes_u16.bind fun _ => takes_pure _

theorem SampleTable.takes_fixedFields : SampleTable.fixedFields.Takes 8 := by
  change SampleTable.fixedFields.Takes (1 + (3 + (4 + 0)))
  exact takes_u8.bind fun _ => (takes_block 3).bind fun _ => takes_u32.bind fun _ => takes_pure _

/-- The fixed fields of a video description make up its least size together with the header. -/
theorem VideoDescription.takes_fields (header : Header) :
    (VideoDescription.fields header).Takes (leastSize - Header.width) := by
  have hwidth : leastSize - Header.width = 6 + (2 + (2 + (2 + (4 + (4 + (4 + (2 + (2 + (4 + (4 +
      (4 + (2 + (nameWidth + (2 + (2 + 0))))))))))))))) := rfl
  rw [hwidth]
  -- the data reference, the version, the revision and the vendor
  refine (takes_block 6).bind fun _ => takes_u16.bind fun _ => ?_
  refine takes_u16.bind fun _ => takes_u16.bind fun _ => Tag.takes_field.bind fun _ => ?_
  -- the qualities, the picture and its resolutions
  refine takes_u32.bind fun _ => takes_u32.bind fun _ => ?_
  refine takes_u16.bind fun _ => takes_u16.bind fun _ => ?_
  refine takes_u32.bind fun _ => takes_u32.bind fun _ => ?_
  -- the data size, the frames, the compressor name, the depth and the colour table
  refine takes_u32.bind fun _ => takes_u16.bind fun _ => (takes_bytes nameWidth).bind fun _ => ?_
  exact takes_u16.bind fun _ => takes_i16.bind fun _ => takes_pure _

theorem Payload.fixedFields_of_short {tag : Tag} {field : Field α} {width : Nat} {payload : Bytes}
    (hfield : field.Takes width) (hshort : payload.length < width) :
    fixedFields tag field payload = .error (.layout (.truncated tag)) := by
  rw [fixedFields, hfield.short payload hshort]

/-! ### Splitting payloads -/

namespace Payload

variable {container : Tag} {tooLong : Header → LayoutError} {header : Header} {payload rest : Bytes}

theorem firstChild_of_short (hshort : payload.length < Header.width) :
    firstChild container tooLong payload = .error (.layout (.truncated container)) := by
  rw [firstChild, Header.takes_field.short payload hshort]

theorem firstChild_of_badSize (hsize : header.size.toNat < Header.width) :
    firstChild container tooLong (header.toBytes ++ rest) =
      .error (.invalidSize header.tag header.size.toNat) := by
  rw [firstChild, Header.field_eq_some.mpr rfl]
  simp only [Header.checked_eq_error hsize]

theorem firstChild_of_overrun (hsize : Header.width ≤ header.size.toNat)
    (hover : rest.length < header.payloadLength) :
    firstChild container tooLong (header.toBytes ++ rest) = .error (.layout (tooLong header)) := by
  rw [firstChild, Header.field_eq_some.mpr rfl]
  simp only [Header.checked_eq_ok hsize, if_neg (Nat.not_le.mpr hover)]

theorem firstChild_of_whole {body : Bytes}
    (hsize : header.size.toNat = Header.width + body.length) :
    firstChild container tooLong (header.toBytes ++ (body ++ rest)) = .ok ⟨header, body, rest⟩ := by
  have hbody : body.length = header.payloadLength := by
    rw [Header.payloadLength, hsize, Nat.add_sub_cancel_left]
  exact firstChild_eq_ok.mpr ⟨rfl, hsize ▸ Nat.le_add_right _ _, hbody⟩

/-- How the bytes of a payload begin: with a whole atom, or with one of three things that are none. -/
inductive Front : Bytes → Prop where
  | short {payload : Bytes} (hshort : payload.length < Header.width) : Front payload
  | badSize {header : Header} {rest : Bytes} (hbad : header.size.toNat < Header.width) :
      Front (header.toBytes ++ rest)
  | overrun {header : Header} {rest : Bytes} (hsize : Header.width ≤ header.size.toNat)
      (hover : rest.length < header.payloadLength) : Front (header.toBytes ++ rest)
  | whole {header : Header} {body rest : Bytes}
      (hsize : header.size.toNat = Header.width + body.length) :
      Front (header.toBytes ++ (body ++ rest))

theorem front (payload : Bytes) : Front payload := by
  by_cases hshort : payload.length < Header.width
  · exact .short hshort
  obtain ⟨header, tail, rfl⟩ := Header.exists_eq_toBytes_append (Nat.le_of_not_lt hshort)
  by_cases hbad : header.size.toNat < Header.width
  · exact .badSize hbad
  have hsize := Nat.le_of_not_lt hbad
  by_cases hover : tail.length < header.payloadLength
  · exact .overrun hsize hover
  · have hbody := List.length_take_of_le (Nat.le_of_not_lt hover)
    rw [← List.take_append_drop header.payloadLength tail]
    apply Front.whole
    rw [hbody, Header.payloadLength, Nat.add_sub_cancel' hsize]

end Payload

end MovieAtoms
