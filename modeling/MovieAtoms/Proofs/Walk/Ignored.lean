import MovieAtoms.Proofs.Walk.Forest
import MovieAtoms.Proofs.Walk.Places

/-!
# Bytes that a walk ignores

A walk ignores the payloads that it passes over, the sizes of the atoms that it steps into, and
whatever lies behind the place where it stops. Where these are follows from its events, since each
that tells of an atom counts from the header of that atom. Main statement: `run_ignored`, by which
the headers stand where the events count from, and other bytes in the ignored places, as long as
sizes still cover their headers, change neither the outcome nor the place where the walk stops.

Two walks are compared, one on each of two data of the same length. Their events may differ, since
a report on an atom that is stepped into shows its size, so the invariant speaks of the events of
the first walk only: `Alike` says that the bytes still to be read agree outside the places that
the events still to come mark.
-/

namespace MovieAtoms

namespace Event

/-- Whether the walk ignores a byte of the atom: of one that it passes over the payload, of one that
    it steps into the size. -/
def ignores : Event → Nat → Bool
  | .skippingSibling header _, place => Header.width ≤ place && place < header.size.toNat
  | .executing _ ⟨.skip, _⟩ size, place => Header.width ≤ place && place < size.toNat
  | .executing _ ⟨.stepInto, _⟩ _, place => place < 4
  | _, _ => false

/-- Whether a byte is the first of an atom that the walk steps into. -/
def enters : Event → Nat → Bool
  | .executing _ ⟨.stepInto, _⟩ _, place => place == 0
  | _, _ => false

variable {event : Event} {place : Nat}

theorem ignores_of_extent_le (h : event.extent ≤ place) : event.ignores place = false := by
  unfold ignores
  split
  · exact Bool.and_eq_false_imp.mpr fun _ => decide_eq_false (Nat.not_lt.mpr h)
  · exact Bool.and_eq_false_imp.mpr fun _ => decide_eq_false (Nat.not_lt.mpr h)
  · have hwidth : 4 ≤ Header.width := by decide
    exact decide_eq_false (Nat.not_lt.mpr (Nat.le_trans hwidth h))
  · rfl

theorem enters_of_extent_le (h : event.extent ≤ place) : event.enters place = false := by
  unfold enters
  split
  · have hwidth : 0 < Header.width := by decide
    exact beq_false_of_ne (Nat.ne_of_gt (Nat.lt_of_lt_of_le hwidth h))
  · rfl

/-- The event tells of an atom that is passed over as a whole: nothing of its header is ignored. -/
structure PassesOver (event : Event) (header : Header) : Prop where
  extent : event.extent = header.size.toNat
  keeps : ∀ place < Header.width, event.ignores place = false

theorem passesOver_skippingSibling (header : Header) (wanted : Tag) :
    (skippingSibling header wanted).PassesOver header :=
  ⟨rfl, fun _ hplace => Bool.and_eq_false_imp.mpr fun hle =>
    absurd (of_decide_eq_true hle) (Nat.not_le.mpr hplace)⟩

theorem passesOver_skip (index : Nat) (tag : Tag) (header : Header) :
    (executing index ⟨.skip, tag⟩ header.size).PassesOver header :=
  ⟨rfl, fun _ hplace => Bool.and_eq_false_imp.mpr fun hle =>
    absurd (of_decide_eq_true hle) (Nat.not_le.mpr hplace)⟩

end Event

namespace Walk

/-- Whether one of the events marks a place, counted from where the first of them counts. -/
def marked (mark : Event → Nat → Bool) : List Event → Nat → Bool
  | [], _ => false
  | event :: others, place =>
      mark event place || (event.extent ≤ place && marked mark others (place - event.extent))

section

variable {mark : Event → Nat → Bool} {event : Event} {events acts : List Event} {place : Nat}

theorem marked_cons_of_lt (h : place < event.extent) :
    marked mark (event :: events) place = mark event place := by
  rw [marked, decide_eq_false (Nat.not_le.mpr h), Bool.false_and, Bool.or_false]

variable (hmark : ∀ event place, event.extent ≤ place → mark event place = false)

include hmark

theorem marked_cons_add :
    marked mark (event :: events) (event.extent + place) = marked mark events place := by
  have hle := Nat.le_add_right event.extent place
  rw [marked, hmark event _ hle, decide_eq_true hle, Nat.add_sub_cancel_left, Bool.true_and,
    Bool.false_or]

theorem marked_quiet_append (hquiet : ∀ event ∈ acts, event.Quiet) :
    marked mark (acts ++ events) place = marked mark events place := by
  induction acts with
  | nil => rfl
  | cons act acts ih =>
      obtain ⟨hact, hacts⟩ := List.forall_mem_cons.mp hquiet
      have hextent := Event.extent_of_quiet hact
      calc
        marked mark (act :: (acts ++ events)) place =
            marked mark (act :: (acts ++ events)) (act.extent + place) := by
          rw [hextent, Nat.zero_add]
        _ = marked mark (acts ++ events) place := marked_cons_add hmark
        _ = marked mark events place := ih hacts

end

/-! ### Data that differ in ignored places only -/

/-- The bytes that a walk with these events has still to read agree with others outside the places
    that it ignores. The last `free` bytes are behind the place where it stops. -/
structure Alike (events : List Event) (free : Nat) (bytes bytes' : Bytes) : Prop where
  length : bytes'.length = bytes.length
  agree : ∀ place, place + free < bytes.length → marked Event.ignores events place = false →
    bytes'[place]? = bytes[place]?
  sizes : ∀ place, marked Event.enters events place →
    Header.width ≤ Wire.number ((bytes'.drop place).take 4)

section

variable {event : Event} {events acts : List Event} {free : Nat} {header : Header}
  {bytes bytes' front front' payload tail tail' : Bytes}

/-- Data that agree with others on a front begin with it too. -/
theorem exists_eq_append_of_agree (hlength : bytes'.length = (front ++ tail).length)
    (hagree : ∀ place < front.length, bytes'[place]? = (front ++ tail)[place]?) :
    ∃ tail', bytes' = front ++ tail' ∧ tail'.length = tail.length := by
  rw [List.length_append] at hlength
  have htake : bytes'.take front.length = front := by
    apply List.ext_getElem?
    intro place
    by_cases hplace : place < front.length
    · rw [List.getElem?_take_of_lt hplace, hagree place hplace, List.getElem?_append_left hplace]
    · have hle := Nat.le_of_not_lt hplace
      rw [List.getElem?_eq_none hle, List.getElem?_eq_none]
      exact Nat.le_trans (List.length_take_le _ _) hle
  refine ⟨bytes'.drop front.length, ?_, ?_⟩
  · calc
      bytes' = bytes'.take front.length ++ bytes'.drop front.length :=
        (List.take_append_drop _ _).symm
      _ = front ++ bytes'.drop front.length := by rw [htake]
  · rw [List.length_drop, hlength, Nat.add_sub_cancel_left]

theorem Alike.same_front (h : Alike events free (front ++ tail) bytes') (hfree : free ≤ tail.length)
    (hkeep : ∀ place < front.length, marked Event.ignores events place = false) :
    ∃ tail', bytes' = front ++ tail' ∧ tail'.length = tail.length := by
  refine exists_eq_append_of_agree h.length fun place hplace => ?_
  refine h.agree place ?_ (hkeep place hplace)
  rw [List.length_append]
  omega

theorem Alike.behind (h : Alike (event :: events) free (front ++ tail) (front' ++ tail'))
    (hfront : front.length = event.extent) (hfront' : front'.length = event.extent) :
    Alike events free tail tail' := by
  have hlength := h.length
  rw [List.length_append, List.length_append, hfront, hfront'] at hlength
  refine ⟨Nat.add_left_cancel hlength, ?_, ?_⟩
  · intro place hplace hkeep
    have hagree := h.agree (event.extent + place) (by rw [List.length_append]; omega)
      (by rw [marked_cons_add fun _ _ => Event.ignores_of_extent_le]; exact hkeep)
    rw [← hfront, List.getElem?_append_right (Nat.le_add_right _ _), hfront, ← hfront',
      List.getElem?_append_right (Nat.le_add_right _ _), Nat.add_sub_cancel_left] at hagree
    exact hagree
  · intro place hplace
    have hsizes := h.sizes (event.extent + place)
      (by rw [marked_cons_add fun _ _ => Event.enters_of_extent_le]; exact hplace)
    rw [← hfront', ← List.drop_drop, List.drop_left] at hsizes
    exact hsizes

theorem Alike.quiet (h : Alike (acts ++ events) free bytes bytes')
    (hquiet : ∀ event ∈ acts, event.Quiet) : Alike events free bytes bytes' := by
  refine ⟨h.length, ?_, ?_⟩
  · intro place hplace hkeep
    refine h.agree place hplace ?_
    rw [marked_quiet_append (fun _ _ => Event.ignores_of_extent_le) hquiet]
    exact hkeep
  · intro place hplace
    refine h.sizes place ?_
    rw [marked_quiet_append (fun _ _ => Event.enters_of_extent_le) hquiet]
    exact hplace

theorem Alike.same_header (h : Alike (event :: events) free (header.toBytes ++ tail) bytes')
    (hfree : free ≤ tail.length) (hsize : Header.width ≤ header.size.toNat)
    (hpasses : event.PassesOver header) :
    ∃ tail', bytes' = header.toBytes ++ tail' ∧ tail'.length = tail.length := by
  refine h.same_front hfree fun place hplace => ?_
  rw [header.length_toBytes] at hplace
  rw [marked_cons_of_lt (hpasses.extent ▸ Nat.lt_of_lt_of_le hplace hsize)]
  exact hpasses.keeps place hplace

/-- An atom that is passed over keeps its header and the length of its payload. -/
theorem Alike.passed_over
    (h : Alike (event :: events) free (header.toBytes ++ (payload ++ tail)) bytes')
    (hfree : free ≤ tail.length) (hsize : Header.width ≤ header.size.toNat)
    (hpasses : event.PassesOver header) (hpayload : payload.length = header.payloadLength) :
    ∃ payload' tail', bytes' = header.toBytes ++ (payload' ++ tail') ∧
      payload'.length = header.payloadLength ∧ tail'.length = tail.length ∧
      Alike events free tail tail' := by
  have hle : free ≤ (payload ++ tail).length := by
    rw [List.length_append]
    exact Nat.le_trans hfree (Nat.le_add_left _ _)
  obtain ⟨rest', rfl, hrest⟩ := h.same_header hle hsize hpasses
  rw [List.length_append] at hrest
  have hcovers : ¬rest'.length < header.payloadLength := by
    rw [hrest, hpayload]
    exact Nat.not_lt.mpr (Nat.le_add_right _ _)
  obtain ⟨payload', tail', rfl, hpayload'⟩ := exists_eq_payload_append hcovers
  rw [List.length_append, hpayload, hpayload'] at hrest
  rw [← List.append_assoc, ← List.append_assoc] at h
  refine ⟨payload', tail', rfl, hpayload', Nat.add_left_cancel hrest, ?_⟩
  apply h.behind
  · rw [Header.length_toBytes_append hsize hpayload, hpasses.extent]
  · rw [Header.length_toBytes_append hsize hpayload', hpasses.extent]

/-- An atom of which nothing is ignored is the same, be it whole or cut off. -/
theorem Alike.same_captured (h : Alike (event :: events) free (front ++ tail) bytes')
    (hfree : free ≤ tail.length) (hextent : front.length ≤ event.extent)
    (hkeep : ∀ place, event.ignores place = false) :
    ∃ tail', bytes' = front ++ tail' ∧ tail'.length = tail.length := by
  refine h.same_front hfree fun place hplace => ?_
  rw [marked_cons_of_lt (Nat.lt_of_lt_of_le hplace hextent)]
  exact hkeep place

/-- An atom that is stepped into keeps its tag. -/
theorem Alike.entered {index : Nat} {tag : Tag} {size : UInt32}
    (h : Alike (.executing index ⟨.stepInto, tag⟩ size :: events) free (header.toBytes ++ tail)
      bytes') (hfree : free ≤ tail.length) :
    ∃ (header' : Header) (tail' : Bytes), bytes' = header'.toBytes ++ tail' ∧
      header'.tag = header.tag ∧ Header.width ≤ header'.size.toNat ∧
      tail'.length = tail.length ∧ Alike events free tail tail' := by
  have hlength := h.length
  rw [List.length_append, header.length_toBytes] at hlength
  obtain ⟨header', tail', rfl⟩ :=
    Header.exists_eq_toBytes_append (hlength ▸ Nat.le_add_right Header.width tail.length)
  rw [List.length_append, header'.length_toBytes] at hlength
  have htail : tail'.length = tail.length := Nat.add_left_cancel hlength
  -- the four places behind the size are not ignored
  have htag : ∀ place < 4, header'.tag.toBytes[place]? = header.tag.toBytes[place]? := by
    intro place hplace
    have hkeep : marked Event.ignores (.executing index ⟨.stepInto, tag⟩ size :: events)
        (4 + place) = false := by
      rw [marked_cons_of_lt (Nat.add_lt_add_left hplace 4)]
      exact decide_eq_false (Nat.not_lt.mpr (Nat.le_add_right 4 place))
    have hagree := h.agree (4 + place)
      (by rw [List.length_append, header.length_toBytes, Header.width]; omega) hkeep
    have hbehind : ¬4 + place < 4 := Nat.not_lt.mpr (Nat.le_add_right 4 place)
    simpa [Header.toBytes, Wire.ofUInt32, List.getElem?_append, hplace, hbehind] using hagree
  refine ⟨header', tail', rfl, ?_, ?_, htail, ?_⟩
  · apply Tag.eq_of_toBytes_eq
    apply List.ext_getElem?
    intro place
    by_cases hplace : place < 4
    · exact htag place hplace
    · have hle := Nat.le_of_not_lt hplace
      rw [List.getElem?_eq_none hle, List.getElem?_eq_none hle]
  · rw [← header'.number_take_toBytes tail']
    exact h.sizes 0 rfl
  · exact h.behind header.length_toBytes header'.length_toBytes

end

/-! ### Searches in lock step -/

section

variable {tag : Tag} {ending : Ending} {bytes bytes' left : Bytes} {log : Logged Header}
  {header : Header} {more : List Event} {free : Nat}

theorem search_length_left_le (h : Search tag ending bytes log left) :
    left.length ≤ bytes.length :=
  (onward_findSibling tag).length_left_le (yields_of_search h)

/-- A search that fails does so on all alike data. -/
theorem search_error_of_alike {events : List Event} {error : DecodeError}
    (h : Search tag ending bytes ⟨events, .error error⟩ left)
    (halike : Alike events left.length bytes bytes') :
    ∃ left', Search tag ending bytes' ⟨events, .error error⟩ left' ∧
      left'.length = left.length := by
  generalize hlog : (⟨events, .error error⟩ : Logged Header) = log at h
  induction h generalizing events bytes' with
  | exhausted =>
      have hnil := List.eq_nil_of_length_eq_zero halike.length
      cases hlog
      rw [hnil]
      exact ⟨[], .exhausted, rfl⟩
  | @cutHeader bytes hsome hcut =>
      cases hlog
      rw [← List.append_nil bytes] at halike
      obtain ⟨tail', rfl, hlength⟩ := halike.same_front (Nat.le_refl _) fun _ _ => rfl
      rw [List.eq_nil_of_length_eq_zero hlength, List.append_nil]
      exact ⟨[], .cutHeader hsome hcut, rfl⟩
  | @badSize header tail hsize =>
      cases hlog
      obtain ⟨tail', rfl, hlength⟩ := halike.same_front (Nat.le_refl _) fun _ _ => rfl
      exact ⟨tail', .badSize hsize, hlength⟩
  | found => cases hlog
  | @cutPayload header payload hsize htag hcut =>
      cases hlog
      obtain ⟨payload', rfl, hlength⟩ := halike.same_header (Nat.zero_le _) hsize
        (Event.passesOver_skippingSibling header tag)
      rw [← hlength] at hcut ⊢
      exact ⟨[], .cutPayload hsize htag hcut, rfl⟩
  | @hop header payload tail left log hsize htag hpayload hnext ih =>
      obtain ⟨later, result⟩ := log
      cases hlog
      obtain ⟨payload', tail', rfl, hpayload', -, htail⟩ := halike.passed_over
        (search_length_left_le hnext) hsize (Event.passesOver_skippingSibling header tag) hpayload
      obtain ⟨left', hsearch, hleft⟩ := ih htail rfl
      exact ⟨left', .hop hsize htag hpayload' hsearch, hleft⟩

/-- A search that succeeds passes over the same headers on all alike data and finds any atom of the
    wanted tag that stands in the place of the one that it found. -/
theorem search_ok_of_alike {events : List Event}
    (h : Search tag ending bytes ⟨events, .ok header⟩ left) (hfree : free ≤ left.length)
    (halike : Alike (events ++ more) free bytes bytes') :
    ∃ rest', Alike more free (header.toBytes ++ left) rest' ∧
      ∀ (header' : Header) (left' : Bytes), rest' = header'.toBytes ++ left' →
        header'.tag = tag → Header.width ≤ header'.size.toNat →
          Search tag ending bytes' ⟨events, .ok header'⟩ left' := by
  generalize hlog : (⟨events, .ok header⟩ : Logged Header) = log at h
  induction h generalizing events bytes' with
  | exhausted => cases hlog
  | cutHeader => cases hlog
  | badSize => cases hlog
  | @found header tail hsize htag =>
      cases hlog
      refine ⟨bytes', halike, ?_⟩
      rintro header' left' rfl htag' hsize'
      exact .found hsize' htag'
  | cutPayload => cases hlog
  | @hop passed payload tail left log hsize htag hpayload hnext ih =>
      obtain ⟨later, result⟩ := log
      cases hlog
      obtain ⟨payload', tail', rfl, hpayload', -, htail⟩ := halike.passed_over
        (Nat.le_trans hfree (search_length_left_le hnext)) hsize
        (Event.passesOver_skippingSibling passed tag) hpayload
      obtain ⟨rest', hrest, hgo⟩ := ih hfree htail rfl
      refine ⟨rest', hrest, ?_⟩
      intro header' left' hsplit htag' hsize'
      exact .hop hsize htag hpayload' (hgo header' left' hsplit htag' hsize')

end

/-! ### Walks in lock step -/

section

variable {ending : Ending} {header : Header} {bytes bytes' middle behind left : Bytes}
  {acts more : List Event} {free index : Nat}

/-- The data begin with an atom of the same tag. What the operation does with it comes to the same
    outcome and leaves as many bytes, and after a success these are alike. -/
def Repeats (operation : Operation) (header : Header) (ending : Ending)
    (found : Except DecodeError (Option Atom)) (more : List Event) (free : Nat)
    (behind bytes' : Bytes) : Prop :=
  ∃ (header' : Header) (middle' : Bytes) (acts' : List Event) (behind' : Bytes),
    bytes' = header'.toBytes ++ middle' ∧ header'.tag = header.tag ∧
      Header.width ≤ header'.size.toNat ∧
      (carryOut operation header').Yields middle' ending ⟨acts', found⟩ behind' ∧
      behind'.length = behind.length ∧
      ((∃ record, found = .ok record) → Alike more free behind behind')

theorem repeats_stepInto {found : Except DecodeError (Option Atom)}
    (h : (carryOut .stepInto header).Yields middle ending ⟨acts, found⟩ behind)
    (hfree : free ≤ behind.length)
    (halike : Alike (.executing index ⟨.stepInto, header.tag⟩ header.size :: (acts ++ more)) free
      (header.toBytes ++ middle) bytes') :
    Repeats .stepInto header ending found more free behind bytes' := by
  have hquiet := h.quiet (quiet_carryOut .stepInto header)
  obtain ⟨hlog, rfl⟩ := h.unique (yields_stepInto header middle ending)
  cases hlog
  obtain ⟨header', tail', rfl, htag, hsize', hlength, htail⟩ := halike.entered hfree
  exact ⟨header', tail', _, tail', rfl, htag, hsize', yields_stepInto header' tail' ending,
    hlength, fun _ => htail.quiet hquiet⟩

theorem repeats_skip {found : Except DecodeError (Option Atom)}
    (h : (carryOut .skip header).Yields middle ending ⟨acts, found⟩ behind)
    (hsize : Header.width ≤ header.size.toNat) (hfree : free ≤ behind.length)
    (halike : Alike (.executing index ⟨.skip, header.tag⟩ header.size :: (acts ++ more)) free
      (header.toBytes ++ middle) bytes') :
    Repeats .skip header ending found more free behind bytes' := by
  have hpasses := Event.passesOver_skip index header.tag header
  by_cases hcut : middle.length < header.payloadLength
  · obtain ⟨hlog, rfl⟩ := h.unique (yields_skip_error hcut)
    cases hlog
    obtain ⟨middle', rfl, hlength⟩ :=
      halike.same_header (Nat.le_trans hfree (Nat.zero_le _)) hsize hpasses
    rw [← hlength] at hcut ⊢
    refine ⟨header, middle', [], [], rfl, rfl, hsize, yields_skip_error hcut, rfl, ?_⟩
    rintro ⟨record, hok⟩
    cases hok
  · obtain ⟨payload, tail, rfl, hpayload⟩ := exists_eq_payload_append hcut
    obtain ⟨hlog, rfl⟩ := h.unique (yields_skip hpayload)
    cases hlog
    obtain ⟨payload', tail', rfl, hpayload', hlength, htail⟩ :=
      halike.passed_over hfree hsize hpasses hpayload
    exact ⟨header, payload' ++ tail', [], tail', rfl, rfl, hsize, yields_skip hpayload',
      hlength, fun _ => htail⟩

theorem repeats_read {found : Except DecodeError (Option Atom)}
    (h : (carryOut .read header).Yields middle ending ⟨acts, found⟩ behind)
    (hsize : Header.width ≤ header.size.toNat) (hfree : free ≤ behind.length)
    (halike : Alike (.executing index ⟨.read, header.tag⟩ header.size :: (acts ++ more)) free
      (header.toBytes ++ middle) bytes') :
    Repeats .read header ending found more free behind bytes' := by
  have hquiet := h.quiet (quiet_carryOut .read header)
  by_cases hcut : middle.length < header.payloadLength
  · obtain ⟨hlog, rfl⟩ := h.unique (yields_read_error hcut)
    cases hlog
    rw [← List.append_nil middle, ← List.append_assoc] at halike
    have hextent : (header.toBytes ++ middle).length ≤ header.size.toNat := by
      rw [Header.payloadLength] at hcut
      rw [List.length_append, header.length_toBytes]
      omega
    obtain ⟨tail', rfl, hlength⟩ := halike.same_captured hfree hextent fun _ => rfl
    rw [List.eq_nil_of_length_eq_zero hlength, List.append_nil]
    refine ⟨header, middle, [], [], rfl, rfl, hsize, yields_read_error hcut, rfl, ?_⟩
    rintro ⟨record, hok⟩
    cases hok
  · obtain ⟨payload, tail, rfl, hpayload⟩ := exists_eq_payload_append hcut
    obtain ⟨log, hsettles⟩ := exists_settles_read hpayload
    obtain ⟨rfl, rfl⟩ := h.unique (hsettles tail ending)
    rw [← List.append_assoc] at halike
    have hextent : (header.toBytes ++ payload).length = header.size.toNat :=
      Header.length_toBytes_append hsize hpayload
    obtain ⟨tail', rfl, hlength⟩ :=
      halike.same_captured hfree (Nat.le_of_eq hextent) fun _ => rfl
    have htail := halike.behind hextent hextent
    exact ⟨header, payload ++ tail', acts, tail', List.append_assoc .., rfl, hsize,
      hsettles tail' ending, hlength, fun _ => htail.quiet hquiet⟩

theorem repeats_carryOut {operation : Operation} {found : Except DecodeError (Option Atom)}
    (h : (carryOut operation header).Yields middle ending ⟨acts, found⟩ behind)
    (hsize : Header.width ≤ header.size.toNat) (hfree : free ≤ behind.length)
    (halike : Alike (.executing index ⟨operation, header.tag⟩ header.size :: (acts ++ more)) free
      (header.toBytes ++ middle) bytes') :
    Repeats operation header ending found more free behind bytes' := by
  cases operation with
  | read => exact repeats_read h hsize hfree halike
  | stepInto => exact repeats_stepInto h hfree halike
  | skip => exact repeats_skip h hsize hfree halike

/-- On alike data, directives come to the same outcome and stop at the same place. -/
theorem carryOutAll_alike {directives : List Directive} {log : Logged (List Atom)}
    (h : (carryOutAll index directives).Yields bytes ending log left)
    (halike : Alike log.events left.length bytes bytes') :
    ∃ events' left',
      (carryOutAll index directives).Yields bytes' ending ⟨events', log.result⟩ left' ∧
        left'.length = left.length := by
  induction directives generalizing index bytes bytes' log left with
  | nil =>
      obtain ⟨rfl, rfl⟩ := h.unique yields_carryOutAll_nil
      exact ⟨[], bytes', yields_carryOutAll_nil, halike.length⟩
  | cons directive others ih =>
      obtain ⟨operation, tag⟩ := directive
      rcases carryOutAll_cases h with ⟨events, error, hsearch, rfl⟩ |
        ⟨events, header, middle, acts, hsearch, ⟨error, hact, rfl⟩ |
          ⟨found, behind, rest, hact, hrest, rfl⟩⟩
      · obtain ⟨left', hsearch', hlength⟩ := search_error_of_alike hsearch halike
        have hfind' := yields_of_search hsearch'
        exact ⟨events, left', yields_carryOutAll_search_error hfind', hlength⟩
      · have hfree := (onward_carryOut operation header).length_left_le hact
        obtain ⟨rest', hrest', hgo⟩ := search_ok_of_alike hsearch hfree halike
        obtain ⟨rfl, hsize⟩ := search_ok hsearch
        rw [← List.append_nil acts] at hrest'
        obtain ⟨header', middle', acts', behind', rfl, htag', hsize', hact', hlength, -⟩ :=
          repeats_carryOut hact hsize (Nat.le_refl _) hrest'
        have hfind' := yields_of_search (hgo header' middle' rfl htag' hsize')
        exact ⟨_, behind', yields_carryOutAll_act_error hfind' hact', hlength⟩
      · have hbehind := (onward_carryOut operation header).length_left_le hact
        have hfree := (onward_carryOutAll (index + 1) others).length_left_le hrest
        obtain ⟨rest', hrest', hgo⟩ :=
          search_ok_of_alike hsearch (Nat.le_trans hfree hbehind) halike
        obtain ⟨rfl, hsize⟩ := search_ok hsearch
        obtain ⟨header', middle', acts', behind', rfl, htag', hsize', hact', -, hthen⟩ :=
          repeats_carryOut hact hsize hfree hrest'
        have hfind' := yields_of_search (hgo header' middle' rfl htag' hsize')
        obtain ⟨events', left', hlater, hlength⟩ := ih hrest (hthen ⟨found, rfl⟩)
        have hall := yields_carryOutAll_cons hfind' hact' hlater
        exact ⟨_, left', hall, hlength⟩

end

/-! ### The whole walk -/

/-- Whether a byte of the source is one that the walk ignores. Before the end of the file type there
    are none. -/
def ignores (directives : List Directive) (source : Source) (place : Nat) : Bool :=
  leadingFileType.taken source ≤ place &&
    marked Event.ignores (run directives source).1.events (place - leadingFileType.taken source)

/-- Whether an atom that the walk steps into begins at a place of the source. -/
def enters (directives : List Directive) (source : Source) (place : Nat) : Bool :=
  leadingFileType.taken source ≤ place &&
    marked Event.enters (run directives source).1.events (place - leadingFileType.taken source)

/-- Another source differs from the first in bytes that the walk on the first ignores or does not
    reach, and the sizes in atoms that are stepped into cover their headers. -/
structure Varies (directives : List Directive) (source other : Source) : Prop where
  ending : other.ending = source.ending
  length : other.rest.length = source.rest.length
  agree : ∀ place < (run directives).taken source, ignores directives source place = false →
    other.rest[place]? = source.rest[place]?
  sizes : ∀ place, enters directives source place →
    Header.width ≤ Wire.number ((other.rest.drop place).take 4)

variable {directives : List Directive} {source other : Source} {used more left tail tail' : Bytes}

/-- Up to the end of the file type, nothing is ignored. -/
theorem Varies.same_start (h : Varies directives source other) (hsplit : source.rest = used ++ tail)
    (hstart : used.length ≤ leadingFileType.taken source)
    (htaken : used.length ≤ (run directives).taken source) :
    ∃ tail', other.rest = used ++ tail' ∧ tail'.length = tail.length := by
  have hlength := h.length
  rw [hsplit] at hlength
  refine exists_eq_append_of_agree hlength fun place hplace => ?_
  rw [← hsplit]
  refine h.agree place (Nat.lt_of_lt_of_le hplace htaken) ?_
  rw [ignores, decide_eq_false (Nat.not_le.mpr (Nat.lt_of_lt_of_le hplace hstart)), Bool.false_and]

/-- Behind the file type, the bytes are alike for the directives. -/
theorem Varies.alike (h : Varies directives source other) {events : List Event}
    {log : Logged (List Atom)} {result : Except DecodeError Extraction}
    (hsplit : source.rest = used ++ (more ++ left)) (hother : other.rest = used ++ tail')
    (hstart : leadingFileType.taken source = used.length)
    (hquiet : ∀ event ∈ events, event.Quiet)
    (hrun : (run directives).Yields source.rest source.ending ⟨events ++ log.events, result⟩ left) :
    Alike log.events left.length (more ++ left) tail' := by
  have hevents : (run directives source).1.events = events ++ log.events := by
    rw [(hrun.eq rfl rfl).1]
  have hlength := h.length
  rw [hsplit, hother, List.length_append, List.length_append] at hlength
  refine ⟨Nat.add_left_cancel hlength, ?_, ?_⟩
  · intro place hplace hkeep
    have hagree := h.agree (used.length + place) ?_ ?_
    · rw [hsplit, hother, List.getElem?_append_right (Nat.le_add_right _ _),
        List.getElem?_append_right (Nat.le_add_right _ _), Nat.add_sub_cancel_left] at hagree
      exact hagree
    · rw [List.length_append] at hplace
      rw [taken, (hrun.eq rfl rfl).2, hsplit, List.length_append, List.length_append]
      omega
    · rw [ignores, hstart, hevents, Nat.add_sub_cancel_left,
        marked_quiet_append (fun _ _ => Event.ignores_of_extent_le) hquiet, hkeep, Bool.and_false]
  · intro place hplace
    have hsizes := h.sizes (used.length + place) ?_
    · rw [hother, ← List.drop_drop, List.drop_left] at hsizes
      exact hsizes
    · rw [enters, hstart, hevents, Nat.add_sub_cancel_left,
        marked_quiet_append (fun _ _ => Event.enters_of_extent_le) hquiet, hplace, Bool.and_true]
      exact decide_eq_true (Nat.le_add_right _ _)

theorem same_result_of_varies (h : Varies directives source other) :
    (run directives other).1.result = (run directives source).1.result ∧
      (run directives).taken other = (run directives).taken source := by
  obtain ⟨⟨events, result⟩, used, tail, hsplit, hleading⟩ :=
    onward_leadingFileType.exists_yields source.rest source.ending
  rw [hsplit] at hleading
  have hstart := taken_eq_of_yields hleading hsplit rfl
  cases result with
  | error error =>
      have hrun : (run directives).Yields (used ++ tail) source.ending
          ⟨events, .error error⟩ tail := hleading.bind_error
      have htaken := taken_eq_of_yields hrun hsplit rfl
      obtain ⟨tail', hother, hlength⟩ :=
        h.same_start hsplit (Nat.le_of_eq hstart.symm) (Nat.le_of_eq htaken.symm)
      have hrun' := (onward_run directives).yields_of_length_eq hrun hlength
      refine ⟨?_, ?_⟩
      · rw [(hrun.eq hsplit rfl).1, (hrun'.eq hother h.ending).1]
      · rw [htaken, taken_eq_of_yields hrun' hother h.ending]
  | ok fileType =>
      obtain ⟨log, more, left, rfl, hatoms⟩ :=
        (onward_carryOutAll 0 directives).exists_yields tail source.ending
      have hrun := yields_run hleading hatoms
      rw [← hsplit] at hrun
      have htaken : used.length ≤ (run directives).taken source := by
        rw [taken, (hrun.eq rfl rfl).2, hsplit, List.length_append, List.length_append]
        omega
      obtain ⟨tail', hother, hlength⟩ := h.same_start hsplit (Nat.le_of_eq hstart.symm) htaken
      have halike := h.alike hsplit hother hstart (hleading.quiet quiet_leadingFileType) hrun
      have hleading' := onward_leadingFileType.yields_of_length_eq hleading hlength
      obtain ⟨events', left', hatoms', hleft'⟩ := carryOutAll_alike hatoms halike
      obtain ⟨hlog, hrest⟩ := hrun.eq rfl rfl
      obtain ⟨hlog', hrest'⟩ := (yields_run hleading' hatoms').eq hother h.ending
      refine ⟨?_, ?_⟩
      · rw [hlog, hlog']
      · rw [taken, taken, hrest, hrest', hleft', h.length]

/-- The events of a walk count from the headers of the atoms that they tell of, and bytes that the
    walk ignores by them change neither its outcome nor the number of bytes that it takes. -/
theorem run_ignored (h : Varies directives source other) :
    Tells (run directives source).1.events
        (source.rest.drop (leadingFileType.taken source)) ∧
      (run directives other).1.result = (run directives source).1.result ∧
      (run directives).taken other = (run directives).taken source :=
  ⟨tells_run directives source, same_result_of_varies h⟩

/-- An atom of one byte, free space of one byte, and one byte more. -/
def looseAtoms (inside free behind : UInt8) : Bytes :=
  Header.toBytes ⟨9, Tag.spelled 'w' 'i' 'd' 'e'⟩ ++ ([inside] ++
    (Header.toBytes ⟨9, Tag.spelled 'f' 'r' 'e' 'e'⟩ ++ ([free] ++ [behind])))

/-- These atoms behind the header of a movie that states some size. -/
def looseMovie (size : UInt32) (inside free behind : UInt8) : Bytes :=
  plainFileType.toBytes ++
    (Header.toBytes ⟨size, Tag.spelled 'm' 'o' 'o' 'v'⟩ ++ looseAtoms inside free behind)

def freeInMovie : List Directive :=
  [⟨.stepInto, Tag.spelled 'm' 'o' 'o' 'v'⟩, ⟨.skip, Tag.spelled 'f' 'r' 'e' 'e'⟩]

theorem yields_looseMovie :
    (run freeInMovie).Yields (looseMovie 17 1 2 3) .endOfInput
      ⟨[.fileType Tag.movieBrand true,
        .executing 0 ⟨.stepInto, Tag.spelled 'm' 'o' 'o' 'v'⟩ 17,
        .skippingSibling ⟨9, Tag.spelled 'w' 'i' 'd' 'e'⟩ (Tag.spelled 'f' 'r' 'e' 'e'),
        .executing 1 ⟨.skip, Tag.spelled 'f' 'r' 'e' 'e'⟩ 9], .ok ⟨plainFileType, []⟩⟩ [3] := by
  have hmovie : Search (Tag.spelled 'm' 'o' 'o' 'v') .endOfInput
      (Header.toBytes ⟨17, Tag.spelled 'm' 'o' 'o' 'v'⟩ ++ looseAtoms 1 2 3)
      ⟨[], .ok ⟨17, Tag.spelled 'm' 'o' 'o' 'v'⟩⟩ (looseAtoms 1 2 3) := .found (by decide) rfl
  have hfound : Search (Tag.spelled 'f' 'r' 'e' 'e') .endOfInput
      (Header.toBytes ⟨9, Tag.spelled 'f' 'r' 'e' 'e'⟩ ++ ([2] ++ [3]))
      ⟨[], .ok ⟨9, Tag.spelled 'f' 'r' 'e' 'e'⟩⟩ ([2] ++ [3]) := .found (by decide) rfl
  have hwide : Tag.spelled 'w' 'i' 'd' 'e' ≠ Tag.spelled 'f' 'r' 'e' 'e' := by decide
  have hpayload : [1].length = Header.payloadLength ⟨9, Tag.spelled 'w' 'i' 'd' 'e'⟩ := rfl
  have hfree : Search (Tag.spelled 'f' 'r' 'e' 'e') .endOfInput (looseAtoms 1 2 3)
      ⟨[.skippingSibling ⟨9, Tag.spelled 'w' 'i' 'd' 'e'⟩ (Tag.spelled 'f' 'r' 'e' 'e')],
        .ok ⟨9, Tag.spelled 'f' 'r' 'e' 'e'⟩⟩ ([2] ++ [3]) :=
    .hop (by decide) hwide hpayload hfound
  have hnil : (carryOutAll 2 []).Yields [3] .endOfInput ⟨[], .ok []⟩ [3] := yields_carryOutAll_nil
  have hskip := yields_carryOutAll_cons (yields_of_search hfree) (yields_skip rfl) hnil
  have hall := yields_carryOutAll_cons (yields_of_search hmovie) (yields_stepInto _ _ _) hskip
  exact yields_run (yields_leadingFileType ⟨rfl, rfl⟩ _ _) hall

/-- Another size of the movie, another payload in it, other free space and another byte behind. -/
theorem run_ignored_looseMovie :
    Varies freeInMovie (Source.ofBytes (looseMovie 17 1 2 3))
        (Source.ofBytes (looseMovie 8 4 5 6)) ∧
      (run freeInMovie (Source.ofBytes (looseMovie 8 4 5 6))).1.result =
        .ok ⟨plainFileType, []⟩ ∧
      (run freeInMovie).taken (Source.ofBytes (looseMovie 8 4 5 6)) = 42 := by
  obtain ⟨hlog, hleft⟩ := yields_looseMovie.eq
    (show (Source.ofBytes (looseMovie 17 1 2 3)).rest = _ from rfl) rfl
  have htaken : (run freeInMovie).taken (Source.ofBytes (looseMovie 17 1 2 3)) = 42 := by
    rw [taken, hleft]
    rfl
  have hwell : plainFileType.WellFormed := ⟨rfl, rfl⟩
  have hstart : leadingFileType.taken (Source.ofBytes (looseMovie 17 1 2 3)) =
      plainFileType.toBytes.length :=
    taken_eq_of_yields (yields_leadingFileType hwell _ .endOfInput) rfl rfl
  have hvaries : Varies freeInMovie (Source.ofBytes (looseMovie 17 1 2 3))
      (Source.ofBytes (looseMovie 8 4 5 6)) := by
    refine ⟨rfl, rfl, ?_, ?_⟩
    · rw [htaken]
      unfold ignores
      rw [hstart, hlog]
      decide
    · intro place hplace
      rw [enters, hstart, hlog] at hplace
      have hfront : place = plainFileType.toBytes.length := by
        simp [marked, Event.enters, Event.extent] at hplace
        omega
      rw [hfront]
      decide
  obtain ⟨-, hresult, hstop⟩ := run_ignored hvaries
  refine ⟨hvaries, ?_, hstop.trans htaken⟩
  rw [hresult, hlog]

end Walk

end MovieAtoms
