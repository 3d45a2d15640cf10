import MovieAtoms.Proofs.Payload.Inward
import MovieAtoms.Proofs.Walk.Yields

/-!
# Short atoms and short sources

Every decoder of atoms first captures the payload that the header announces and then looks at the
captured bytes only. So there are two ways of being too short, and they are told apart: where the
source ends before the payload does, the decoder takes what is left and says that the source ended;
where the payload is whole, the decoder takes exactly the payload, and if the atom is too short for
its fields, or wrong in another way, says so of the atom. Main statement: `decoders_capture`.
-/

namespace MovieAtoms.Walk

/-- Captures the payload that a header announces and decodes it. -/
def captured (header : Header) (decode : Bytes → Logged α) : Walk α := do
  let bytes ← payload header
  ofLogged (decode bytes)

theorem ofLogged_bind (first : Logged α) (next : α → Logged β) :
    (ofLogged first >>= fun value => ofLogged (next value)) = ofLogged (first >>= next) := by
  obtain ⟨events, result⟩ := first
  cases result <;> rfl

theorem atom_eq_captured (header : Header) :
    atom header = captured header fun bytes => do
      let atom ← Atom.ofPayload header bytes
      Logged.report (.decodedAtom header)
      return atom := by
  simp only [captured, ← ofLogged_bind]
  rfl

section

variable {header : Header} {decode : Bytes → Logged α} {bytes tail : Bytes} {ending : Ending}

theorem yields_captured (h : bytes.length = header.payloadLength) :
    (captured header decode).Yields (bytes ++ tail) ending (decode bytes) tail :=
  (yields_payload h).bind (yields_ofLogged (decode bytes)) rfl

theorem yields_captured_error (h : bytes.length < header.payloadLength) :
    (captured header decode).Yields bytes ending (Logged.fail ending.error) [] :=
  (yields_payload_error h).bind_error

end

/-- The decoder takes the payload that the header announces, comes to the outcome of its bytes, and
    only ever blames the source for missing bytes and the atom for wrong ones. -/
structure CapturesExactly (walk : Walk α) (header : Header)
    (outcome : Bytes → Except DecodeError α) : Prop where
  short : ∀ source : Source, source.ending = .endOfInput →
    source.rest.length < header.payloadLength →
      (walk source).1.result = .error .prematureEnd ∧ (walk source).2.rest = []
  whole : ∀ source : Source, source.ending = .endOfInput →
    header.payloadLength ≤ source.rest.length →
      (walk source).1.result = outcome (source.rest.take header.payloadLength) ∧
        (walk source).2.rest = source.rest.drop header.payloadLength
  error : ∀ payload error, outcome payload = .error error →
    (∃ cause, error = .layout cause) ∨ ∃ tag size, error = .invalidSize tag size

theorem capturesExactly_captured (header : Header) (decode : Bytes → Logged α)
    (hinward : ∀ bytes error, (decode bytes).result = .error error → error.Inward) :
    CapturesExactly (captured header decode) header fun bytes => (decode bytes).result where
  short := by
    intro source hending hshort
    have hyields : (captured header decode).Yields source.rest source.ending
        (Logged.fail source.ending.error) [] := yields_captured_error hshort
    obtain ⟨hlog, hleft⟩ := hyields.eq rfl rfl
    refine ⟨?_, hleft⟩
    rw [hlog, hending]
    rfl
  whole := by
    intro source hending hwhole
    have hlength : (source.rest.take header.payloadLength).length = header.payloadLength :=
      List.length_take_of_le hwhole
    have hyields : (captured header decode).Yields
        (source.rest.take header.payloadLength ++ source.rest.drop header.payloadLength)
        source.ending (decode (source.rest.take header.payloadLength))
        (source.rest.drop header.payloadLength) := yields_captured hlength
    rw [List.take_append_drop] at hyields
    obtain ⟨hlog, hleft⟩ := hyields.eq rfl rfl
    exact ⟨congrArg Logged.result hlog, hleft⟩
  error := fun payload error herror => (hinward payload error herror).cases

theorem capturesExactly_atom (header : Header) :
    CapturesExactly (atom header) header fun payload => (Atom.ofPayload header payload).result := by
  have hresult : ∀ payload, (do
      let atom ← Atom.ofPayload header payload
      Logged.report (.decodedAtom header)
      return atom : Logged Atom).result = (Atom.ofPayload header payload).result := by
    intro payload
    obtain ⟨events, result⟩ := Atom.ofPayload header payload
    cases result <;> rfl
  have hcaptures := capturesExactly_captured header
    (fun payload => do
      let atom ← Atom.ofPayload header payload
      Logged.report (.decodedAtom header)
      return atom)
    fun payload error herror =>
      (Atom.inward_ofPayload header payload).error error (hresult payload ▸ herror)
  rw [← atom_eq_captured] at hcaptures
  simpa only [hresult] using hcaptures

/-- Each decoder captures exactly the payload that the header announces. What it comes to is a
    matter of the header and these bytes, and where they are there it never says that the source
    ended or failed. -/
theorem decoders_capture (header : Header) :
    CapturesExactly (atom header) header (fun payload => (Atom.ofPayload header payload).result) ∧
      CapturesExactly (rawAtom header) header (fun payload => .ok ⟨header, payload⟩) ∧
      CapturesExactly (fileType header) header (FileType.decode header) ∧
      CapturesExactly (movieHeader header) header (MovieHeader.decode header) ∧
      CapturesExactly (sampleTable header) header
        (fun payload => (SampleTable.decode header payload).result) := by
  refine ⟨capturesExactly_atom header, ?_, ?_, ?_, ?_⟩
  · exact capturesExactly_captured header (fun payload => pure (RawAtom.mk header payload))
      fun payload => (Logged.inward_pure (RawAtom.mk header payload)).error
  · exact capturesExactly_captured header _ fun payload =>
      (FileType.inward_decode header payload).error
  · exact capturesExactly_captured header _ fun payload =>
      (MovieHeader.inward_decode header payload).error
  · exact capturesExactly_captured header _ fun payload =>
      (SampleTable.inward_decode header payload).error

/-- A movie header of ten bytes is too short for its fields, but that is told only when its two bytes
    of payload are there. -/
theorem decoders_capture_shortHeader :
    let header : Header := ⟨10, Tag.movieHeader⟩
    (movieHeader header (Source.ofBytes [1])).1.result = .error .prematureEnd ∧
      (movieHeader header (Source.ofBytes [1, 2, 3])).1.result =
        .error (.layout (.truncated Tag.movieHeader)) ∧
      (movieHeader header (Source.ofBytes [1, 2, 3])).2.rest = [3] := by
  intro header
  obtain ⟨-, -, -, hcaptures, -⟩ := decoders_capture header
  have hshort : [1].length < header.payloadLength := by decide
  have hwhole : header.payloadLength ≤ [1, 2, 3].length := by decide
  obtain ⟨hend, -⟩ := hcaptures.short (Source.ofBytes [1]) rfl hshort
  obtain ⟨hresult, hrest⟩ := hcaptures.whole (Source.ofBytes [1, 2, 3]) rfl hwhole
  exact ⟨hend, hresult, hrest⟩

end MovieAtoms.Walk
