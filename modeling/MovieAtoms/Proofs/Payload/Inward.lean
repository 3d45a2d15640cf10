import MovieAtoms.Atom

/-!
# Decoding looks inward

A captured payload is decoded without its source. So the events of decoding tell only of what is
inside the atom, and its errors say only that the atom disagrees with itself: running out of
captured bytes is never taken for the end of the source. Decoding that keeps to this is called
inward. Main statements: `FileType.inward_decode`, `MovieHeader.inward_decode`,
`SampleTable.inward_decode` and `Atom.inward_ofPayload`.
-/

namespace MovieAtoms

/-- The event tells of something inside an atom. -/
def Event.Inward : Event → Prop
  | .keepingSound .. | .skippingDescription .. | .ignoringPadding .. => True
  | _ => False

/-- The error says that an atom disagrees with itself. -/
def DecodeError.Inward : DecodeError → Prop
  | .layout .. | .invalidSize .. => True
  | _ => False

theorem DecodeError.Inward.cases {error : DecodeError} (h : error.Inward) :
    (∃ cause, error = .layout cause) ∨ ∃ tag size, error = .invalidSize tag size := by
  cases error with
  | layout cause => exact Or.inl ⟨cause, rfl⟩
  | invalidSize tag size => exact Or.inr ⟨tag, size, rfl⟩
  | _ => cases h

namespace Logged

/-- All that is reported and all that may be wrong is inside an atom. -/
structure Inward (log : Logged α) : Prop where
  events : ∀ event ∈ log.events, event.Inward
  error : ∀ error, log.result = .error error → error.Inward

theorem inward_pure (value : α) : (pure value : Logged α).Inward where
  events := fun _ hevent => by cases hevent
  error := fun _ herror => by cases herror

theorem inward_fail {error : DecodeError} (h : error.Inward) : (fail error : Logged α).Inward where
  events := fun _ hevent => by cases hevent
  error := fun _ herror => by
    cases herror
    exact h

theorem inward_report (event : Event) (h : event.Inward) : (report event).Inward where
  events := fun other hother => by
    rw [List.mem_singleton.mp hother]
    exact h
  error := fun _ herror => by cases herror

theorem Inward.bind {first : Logged α} {next : α → Logged β} (hfirst : first.Inward)
    (hnext : ∀ value, (next value).Inward) : (first >>= next).Inward := by
  obtain ⟨events, result⟩ := first
  cases result with
  | error error =>
      refine ⟨hfirst.events, fun other hother => ?_⟩
      cases hother
      exact hfirst.error error rfl
  | ok value =>
      refine ⟨fun event hevent => ?_, (hnext value).error⟩
      rcases List.mem_append.mp hevent with hevent | hevent
      · exact hfirst.events event hevent
      · exact (hnext value).events event hevent

/-- What is made of a value that was decoded does not matter. -/
theorem Inward.map {result : Except DecodeError α} (h : (ofExcept result).Inward) (f : α → β) :
    (ofExcept (result.map f)).Inward := by
  cases result with
  | error error => exact inward_fail (h.error error rfl)
  | ok value => exact inward_pure (f value)

end Logged

open Logged

/-! ### Parts of a payload -/

namespace Payload

theorem inward_fixedFields (tag : Tag) (fields : Field α) (payload : Bytes) :
    (ofExcept (fixedFields tag fields payload)).Inward := by
  unfold fixedFields
  split
  · exact inward_pure _
  · exact inward_fail trivial

theorem inward_firstChild (container : Tag) (tooLong : Header → LayoutError) (payload : Bytes) :
    (ofExcept (firstChild container tooLong payload)).Inward := by
  unfold firstChild
  split
  · exact inward_fail trivial
  · split
    · rename_i error hchecked
      unfold Header.checked at hchecked
      split at hchecked <;> cases hchecked
      exact inward_fail trivial
    · split
      · exact inward_pure _
      · exact inward_fail trivial

end Payload

/-! ### Sample tables -/

theorem ColorInfo.inward_decode (header : Header) (body : Bytes) :
    (ofExcept (decode header body)).Inward := (Payload.inward_fixedFields ..).map _

namespace Extension

theorem inward_ofChild (child : Child) : (ofExcept (ofChild child)).Inward := by
  unfold ofChild
  split
  · exact (ColorInfo.inward_decode ..).map _
  split
  · exact inward_pure _
  · exact inward_pure _

theorem inward_first {chain : Bytes} {error : DecodeError} (h : first chain = .error error) :
    error.Inward := (Payload.inward_firstChild ..).error error h

theorem inward_decodeChain (chain : Bytes) : (decodeChain chain).Inward := by
  induction chain using decodeChain.induct with
  | case1 chain hempty =>
      rw [decodeChain, if_pos hempty]
      exact inward_pure []
  | case2 chain hsome hpadding =>
      rw [decodeChain, if_neg hsome, if_pos hpadding]
      exact (inward_report (.ignoringPadding _) trivial).bind fun _ => inward_pure []
  | case3 chain hsome hatom error hfirst =>
      rw [decodeChain_eq_fail hsome hatom hfirst]
      exact inward_fail (inward_first hfirst)
  | case4 chain hsome hatom child hfirst ih =>
      rw [decodeChain_eq_bind hsome hatom hfirst]
      refine (inward_ofChild child).bind fun extension => ?_
      exact ih.bind fun others => inward_pure _

end Extension

theorem VideoDescription.inward_decode (header : Header) (body : Bytes) :
    (decode header body).Inward := by
  refine (Payload.inward_fixedFields ..).bind fun taken => ?_
  exact (Extension.inward_decodeChain _).bind fun extensions => inward_pure _

theorem SampleDescription.inward_ofChild (child : Child) : (ofChild child).Inward := by
  simp only [ofChild]
  split
  · split
    · exact inward_fail trivial
    · exact (VideoDescription.inward_decode _ _).bind fun video => inward_pure _
  · split
    · exact (inward_report (.keepingSound _) trivial).bind fun _ => inward_pure _
    · exact (inward_report (.skippingDescription _ _) trivial).bind fun _ => inward_pure _

namespace SampleTable

theorem inward_firstEntry {payload : Bytes} : (ofExcept (firstEntry payload)).Inward :=
  Payload.inward_firstChild ..

theorem inward_decodeEntries (count : Nat) (payload : Bytes) :
    (decodeEntries count payload).Inward := by
  induction count generalizing payload with
  | zero => exact inward_pure _
  | succ count ih =>
      refine inward_firstEntry.bind fun child => ?_
      refine (SampleDescription.inward_ofChild child).bind fun entry => ?_
      exact (ih child.rest).bind fun others => inward_pure _

theorem inward_decodeToEnd (payload : Bytes) : (decodeToEnd payload).Inward := by
  induction payload using decodeToEnd.induct with
  | case1 payload hpadding =>
      rw [decodeToEnd, if_pos hpadding]
      exact inward_pure []
  | case2 payload hatom error hfirst =>
      rw [decodeToEnd_eq_fail hatom hfirst]
      exact inward_fail (inward_firstEntry.error error hfirst)
  | case3 payload hatom child hfirst ih =>
      rw [decodeToEnd_eq_bind hatom hfirst]
      refine (SampleDescription.inward_ofChild child).bind fun entry => ?_
      exact ih.bind fun others => inward_pure _

theorem inward_decode (header : Header) (payload : Bytes) : (decode header payload).Inward := by
  refine (Payload.inward_fixedFields ..).bind fun ⟨⟨version, flags, declared⟩, table⟩ => ?_
  simp only
  split
  · exact inward_fail trivial
  · refine (inward_decodeEntries _ _).bind fun ⟨asDeclared, rest⟩ => ?_
    refine (inward_decodeToEnd rest).bind fun others => ?_
    split
    · exact inward_pure _
    · exact inward_fail trivial

end SampleTable

/-! ### Other atoms -/

theorem FileType.inward_decode (header : Header) (payload : Bytes) :
    (ofExcept (decode header payload)).Inward := by
  unfold decode
  split
  · rename_i error hfields
    exact inward_fail ((Payload.inward_fixedFields ..).error error hfields)
  · simp only
    split
    · exact inward_pure _
    · exact inward_fail trivial

theorem MovieHeader.inward_decode (header : Header) (payload : Bytes) :
    (ofExcept (decode header payload)).Inward := (Payload.inward_fixedFields ..).map _

theorem Atom.inward_ofPayload (header : Header) (payload : Bytes) :
    (ofPayload header payload).Inward := by
  rw [ofPayload]
  split
  · exact (MovieHeader.inward_decode header payload).map _
  · split
    · exact (SampleTable.inward_decode header payload).bind fun table => inward_pure _
    · exact inward_pure _

end MovieAtoms
