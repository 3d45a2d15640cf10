import MovieAtoms.Header

/-!
# Captured payloads

The payload of an atom is captured whole before its fields are picked out. Running out of bytes
then means that the atom is too short, never that the source is.

Main statements: `firstChild_eq_ok`, which says exactly how a payload splits into its first inner
atom and the rest, and `length_rest_lt`, by which splitting makes progress.
-/

namespace MovieAtoms

namespace Payload

/-- The fixed fields at the front of an atom's payload, and what follows them. -/
def fixedFields (tag : Tag) (fields : Field α) (payload : Bytes) : Except DecodeError (α × Bytes) :=
  match fields payload with
  | some taken => .ok taken
  | none => .error (.layout (.truncated tag))

theorem fixedFields_eq_ok {tag : Tag} {fields : Field α} {payload rest : Bytes} {value : α} :
    fixedFields tag fields payload = .ok (value, rest) ↔ fields payload = some (value, rest) := by
  unfold fixedFields
  cases fields payload <;> simp

/-- Too short for a header and all zero: some writers fill up with such bytes. -/
def isPadding (bytes : Bytes) : Bool := bytes.length < Header.width && bytes.all (· = 0)

theorem isPadding_iff {bytes : Bytes} :
    isPadding bytes = true ↔ bytes.length < Header.width ∧ ∀ byte ∈ bytes, byte = 0 := by
  simp only [isPadding, Bool.and_eq_true, decide_eq_true_eq, List.all_eq_true]

theorem isPadding_eq_true {bytes : Bytes} :
    isPadding bytes = true ↔ ∃ count < Header.width, bytes = List.replicate count 0 := by
  rw [isPadding_iff]
  constructor
  · rintro ⟨hshort, hzero⟩
    exact ⟨bytes.length, hshort, List.eq_replicate_of_mem hzero⟩
  · rintro ⟨count, hshort, rfl⟩
    refine ⟨by rwa [List.length_replicate], fun byte hbyte => ?_⟩
    exact List.eq_of_mem_replicate hbyte

/-- Bytes that begin with a header are no padding. -/
theorem not_isPadding_toBytes_append (header : Header) (rest : Bytes) :
    ¬isPadding (header.toBytes ++ rest) := by
  intro h
  obtain ⟨count, hshort, hbytes⟩ := isPadding_eq_true.mp h
  have hlength := congrArg List.length hbytes
  rw [List.length_append, Header.length_toBytes, List.length_replicate] at hlength
  omega

end Payload

/-- The first atom inside a payload. -/
structure Child where
  header : Header
  body : Bytes
  /-- What follows the atom. -/
  rest : Bytes
deriving DecidableEq, Repr

namespace Payload

/-- The first atom inside a payload of the given container. `tooLong` says what is wrong with an
    atom whose body does not fit. -/
def firstChild (container : Tag) (tooLong : Header → LayoutError) (payload : Bytes) :
    Except DecodeError Child :=
  match Header.field payload with
  | none => .error (.layout (.truncated container))
  | some (header, rest) =>
      match header.checked with
      | .error error => .error error
      | .ok header =>
          if header.payloadLength ≤ rest.length then
            .ok ⟨header, rest.take header.payloadLength, rest.drop header.payloadLength⟩
          else .error (.layout (tooLong header))

theorem firstChild_eq_ok {container : Tag} {tooLong : Header → LayoutError} {payload : Bytes}
    {child : Child} :
    firstChild container tooLong payload = .ok child ↔
      payload = child.header.toBytes ++ (child.body ++ child.rest) ∧
        Header.width ≤ child.header.size.toNat ∧
        child.body.length = child.header.payloadLength := by
  obtain ⟨header, body, rest⟩ := child
  constructor
  · intro h
    unfold firstChild at h
    split at h
    · simp at h
    · rename_i found left hfield
      rw [Header.field_eq_some] at hfield
      unfold Header.checked at h
      split at h
      · simp at h
      · rename_i found' hchecked
        split at hchecked
        · simp at hchecked
        · rename_i hsize
          cases hchecked
          split at h
          · rename_i hlength
            cases h
            exact ⟨by rw [List.take_append_drop]; exact hfield, Nat.le_of_not_lt hsize,
              List.length_take_of_le hlength⟩
          · simp at h
  · rintro ⟨hpayload, hsize, hbody⟩
    have hfield := Header.field_eq_some.mpr hpayload
    have hchecked : header.checked = .ok header := if_neg (Nat.not_lt.mpr hsize)
    have hlength : header.payloadLength ≤ (body ++ rest).length := by
      rw [← hbody, List.length_append]
      exact Nat.le_add_right ..
    unfold firstChild
    simp only [hfield, hchecked, if_pos hlength]
    rw [← hbody, List.take_left, List.drop_left]

/-- What follows an inner atom is shorter than the payload by the atom's size. -/
theorem length_rest {container : Tag} {tooLong : Header → LayoutError} {payload : Bytes}
    {child : Child} (h : firstChild container tooLong payload = .ok child) :
    payload.length = child.header.size.toNat + child.rest.length := by
  obtain ⟨rfl, hsize, hbody⟩ := firstChild_eq_ok.mp h
  simp only [Header.payloadLength] at hbody
  simp only [List.length_append, Header.length_toBytes]
  omega

theorem length_rest_lt {container : Tag} {tooLong : Header → LayoutError} {payload : Bytes}
    {child : Child} (h : firstChild container tooLong payload = .ok child) :
    child.rest.length < payload.length := by
  have hsize := (firstChild_eq_ok.mp h).2.1
  have hlength := length_rest h
  simp only [Header.width] at hsize
  omega

end Payload

end MovieAtoms
