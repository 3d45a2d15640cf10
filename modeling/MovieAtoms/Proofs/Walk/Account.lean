import MovieAtoms.Proofs.Walk.Delivery
import MovieAtoms.Proofs.Walk.Places
import MovieAtoms.Proofs.Walk.Records

/-!
# The log accounts for the way

The log of a successful walk tells all of the way. `Recounts` goes through the log event by event
and keeps the directives that are still to be carried out: only an event of the next directive may
follow, and it follows once. The sizes in these events add up to the bytes taken. Main statement:
`run_log_accounts`.
-/

namespace MovieAtoms

namespace Event

/-- The directive whose atom was found, and its index. -/
def executed? : Event → Option (Directive × Nat)
  | .executing index directive _ => some (directive, index)
  | _ => none

/-- The header of the atom that was decoded. -/
def decoded? : Event → Option Header
  | .decodedAtom header => some header
  | _ => none

variable {event : Event}

theorem executed?_of_quiet (h : event.Quiet) : event.executed? = none := by
  cases event with
  | executing => cases h
  | _ => rfl

theorem decoded?_of_inward (h : event.Inward) : event.decoded? = none := by
  cases event with
  | decodedAtom => cases h
  | _ => rfl

end Event

namespace Walk

/-- The events fit directives of which the first has the given index: an atom is passed over only
    in search of the first tag, and the atom that is found ends this search. -/
inductive Recounts : Nat → List Directive → List Event → Prop where
  | done {index : Nat} : Recounts index [] []
  | passed {index : Nat} {directive : Directive} {others : List Directive} {header : Header}
      {later : List Event} (htag : header.tag ≠ directive.tag)
      (hlater : Recounts index (directive :: others) later) :
      Recounts index (directive :: others) (.skippingSibling header directive.tag :: later)
  | found {index : Nat} {directive : Directive} {others : List Directive} {size : UInt32}
      {later : List Event} (hlater : Recounts (index + 1) others later) :
      Recounts index (directive :: others) (.executing index directive size :: later)
  | quiet {index : Nat} {directives : List Directive} {event : Event} {later : List Event}
      (hquiet : event.Quiet) (hlater : Recounts index directives later) :
      Recounts index directives (event :: later)

variable {index : Nat} {directives : List Directive} {events acts later : List Event}
  {bytes middle behind left : Bytes} {ending : Ending} {header : Header} {atoms : List Atom}

theorem Recounts.quiet_append (hquiet : ∀ event ∈ acts, event.Quiet)
    (h : Recounts index directives later) : Recounts index directives (acts ++ later) := by
  induction acts with
  | nil => exact h
  | cons act acts ih =>
      obtain ⟨hact, hacts⟩ := List.forall_mem_cons.mp hquiet
      exact .quiet hact (ih hacts)

/-! ### What a log that fits says -/

/-- Every directive has one event that tells of its atom, in order. -/
theorem Recounts.executed_eq (h : Recounts index directives events) :
    events.filterMap Event.executed? = directives.zipIdx index := by
  induction h with
  | done => rfl
  | passed _ _ ih => exact ih
  | found _ ih =>
      rw [List.zipIdx_cons, ← ih]
      rfl
  | quiet hquiet _ ih => rw [List.filterMap_cons, Event.executed?_of_quiet hquiet, ih]

/-- An atom that was passed over stood in the way of the directive whose turn it was. -/
theorem Recounts.exists_wanted (h : Recounts index directives events) {before after : List Event}
    {wanted : Tag} (hsplit : events = before ++ .skippingSibling header wanted :: after) :
    ∃ directive, directives[(before.filterMap Event.executed?).length]? = some directive ∧
      wanted = directive.tag ∧ header.tag ≠ wanted := by
  induction h generalizing before with
  | done => cases (List.append_eq_nil_iff.mp hsplit.symm).2
  | passed htag _ ih =>
      cases before with
      | nil =>
          cases hsplit
          exact ⟨_, rfl, rfl, htag⟩
      | cons event before =>
          obtain ⟨rfl, hlater⟩ := List.cons.inj hsplit
          have hwanted := ih hlater
          exact hwanted
  | found _ ih =>
      cases before with
      | nil => cases hsplit
      | cons event before =>
          -- the event that ends the search is counted, and the next directive has its turn
          obtain ⟨rfl, hlater⟩ := List.cons.inj hsplit
          exact ih hlater
  | quiet hquiet _ ih =>
      cases before with
      | nil =>
          cases hsplit
          cases hquiet
      | cons event before =>
          obtain ⟨rfl, hlater⟩ := List.cons.inj hsplit
          rw [List.filterMap_cons, Event.executed?_of_quiet hquiet]
          exact ih hlater

/-! ### Searches and operations -/

/-- A search that succeeds passes over atoms of other tags, and their sizes are the bytes in front
    of the header that it reads. -/
theorem recounts_search {operation : Operation} {tag : Tag} {others : List Directive}
    (h : Search tag ending bytes ⟨events, .ok header⟩ left) :
    (∀ later, Recounts index (⟨operation, tag⟩ :: others) later →
      Recounts index (⟨operation, tag⟩ :: others) (events ++ later)) ∧
    events.filterMap Event.decoded? = [] ∧
    bytes.length = extents events + (Header.width + left.length) := by
  generalize hlog : (⟨events, .ok header⟩ : Logged Header) = log at h
  induction h generalizing events with
  | found =>
      cases hlog
      refine ⟨fun later hlater => hlater, rfl, ?_⟩
      rw [List.length_append, Header.length_toBytes, extents, Nat.zero_add]
  | @hop passed payload tail left log hsize htag hpayload _ ih =>
      obtain ⟨further, result⟩ := log
      cases hlog
      obtain ⟨hrecounts, hdecoded, hlength⟩ := ih rfl
      have hwhole := Header.length_toBytes_append hsize hpayload
      refine ⟨fun later hlater => .passed htag (hrecounts later hlater), hdecoded, ?_⟩
      rw [← List.append_assoc, List.length_append, hwhole, hlength, extents, Event.extent,
        Nat.add_assoc]
  | _ => cases hlog

theorem decoded_of_inward (h : ∀ event ∈ acts, event.Inward) :
    acts.filterMap Event.decoded? = [] :=
  List.filterMap_eq_nil_iff.mpr fun event hevent => Event.decoded?_of_inward (h event hevent)

/-- What is done with an atom reports the record that comes of it, if any. -/
theorem decoded_carryOut {operation : Operation} {found : Option Atom}
    (h : (carryOut operation header).Yields middle ending ⟨acts, .ok found⟩ behind) :
    acts.filterMap Event.decoded? = found.toList.map Atom.header := by
  cases operation with
  | stepInto =>
      obtain ⟨hlog, -⟩ := h.unique (yields_stepInto header middle ending)
      cases hlog
      split <;> rfl
  | skip =>
      obtain ⟨rfl, payload, rfl, hpayload⟩ := skip_ok h
      obtain ⟨hlog, -⟩ := h.unique (yields_skip hpayload)
      cases hlog
      rfl
  | read =>
      obtain ⟨record, payload, rfl, rfl, hpayload, hdecode⟩ := read_ok h
      rcases hlog : Atom.ofPayload header payload with ⟨told, result⟩
      have hinward := (Atom.inward_ofPayload header payload).events
      rw [hlog] at hdecode hinward
      cases hdecode
      obtain ⟨hacts, -⟩ := h.unique (yields_read hpayload hlog)
      cases hacts
      have hrecord := Atom.ofPayload_result_eq_ok.mp (congrArg Logged.result hlog)
      rw [List.filterMap_append, decoded_of_inward hinward, ← hrecord.1]
      rfl

/-- What is done with an atom takes what its event says. -/
theorem length_extent {operation : Operation} {found : Option Atom}
    (hsize : Header.width ≤ header.size.toNat)
    (h : (carryOut operation header).Yields middle ending ⟨acts, .ok found⟩ behind)
    (index : Nat) (tag : Tag) :
    Header.width + middle.length =
      (Event.executing index ⟨operation, tag⟩ header.size).extent + behind.length := by
  have hpayload : ∀ {payload : Bytes}, payload.length = header.payloadLength →
      Header.width + (payload ++ behind).length = header.size.toNat + behind.length := by
    intro payload hlength
    rw [List.length_append, hlength, ← Nat.add_assoc, Header.payloadLength,
      Nat.add_sub_cancel' hsize]
  cases operation with
  | stepInto =>
      obtain ⟨-, rfl⟩ := stepInto_ok h
      rfl
  | skip =>
      obtain ⟨-, payload, rfl, hlength⟩ := skip_ok h
      exact hpayload hlength
  | read =>
      obtain ⟨record, payload, -, rfl, hlength, -⟩ := read_ok h
      exact hpayload hlength

/-! ### Directives and whole walks -/

/-- The events of directives that succeed fit the directives, tell of each record, and account for
    the bytes from `bytes` to `left`. -/
structure Accounted (index : Nat) (directives : List Directive) (events : List Event)
    (atoms : List Atom) (bytes left : Bytes) : Prop where
  recounts : Recounts index directives events
  decoded : events.filterMap Event.decoded? = atoms.map Atom.header
  length : bytes.length = extents events + left.length

theorem accounted_carryOutAll
    (h : (carryOutAll index directives).Yields bytes ending ⟨events, .ok atoms⟩ left) :
    Accounted index directives events atoms bytes left := by
  induction directives generalizing index bytes events atoms with
  | nil =>
      obtain ⟨hlog, rfl⟩ := h.unique yields_carryOutAll_nil
      cases hlog
      exact ⟨.done, rfl, (Nat.zero_add _).symm⟩
  | cons directive others ih =>
      obtain ⟨operation, tag⟩ := directive
      rcases carryOutAll_cases h with ⟨_, _, -, hlog⟩ |
        ⟨_, header, middle, acts, hsearch, ⟨_, -, hlog⟩ | ⟨found, behind, rest, hact, hrest, hlog⟩⟩
      · cases hlog
      · cases hlog
      obtain ⟨later, error | rest⟩ := rest
      · cases hlog
      cases hlog
      obtain ⟨hrecounts, hdecoded, hlength⟩ := ih hrest
      obtain ⟨hfront, hnone, hfound⟩ := recounts_search hsearch
      have hquiet := hact.quiet (quiet_carryOut operation header)
      have hextent := length_extent (search_ok hsearch).2 hact index tag
      refine ⟨hfront _ (.found (hrecounts.quiet_append hquiet)), ?_, ?_⟩
      · rw [List.filterMap_append, hnone, List.nil_append, List.map_append, ← hdecoded,
          ← decoded_carryOut hact, ← List.filterMap_append]
        rfl
      · have hothers : behind.length = extents later + left.length := hlength
        rw [hfound, hextent, hothers, extents_append, extents, extents_append,
          extents_of_quiet hquiet]
        simp only [Nat.add_assoc, Nat.zero_add]

/-- The log of a successful walk starts with the file type. Behind it, there is one event for each
    directive that tells of its atom, in order and with its index; an atom is reported as passed
    over when it carries another tag than the next of these directives asks for; each record is
    reported with its header, in order; and the walk took the file type, the atoms that were passed
    over, the atoms that were read or skipped, and the headers of those that were stepped into. -/
theorem run_log_accounts {source : Source} {extraction : Extraction}
    (h : (run directives source).1.result = .ok extraction) :
    ∃ later,
      (run directives source).1.events =
        .fileType extraction.fileType.majorBrand extraction.fileType.isMovie :: later ∧
      later.filterMap Event.executed? = directives.zipIdx ∧
      (∀ before header wanted after, later = before ++ .skippingSibling header wanted :: after →
        ∃ directive, directives[(before.filterMap Event.executed?).length]? = some directive ∧
          wanted = directive.tag ∧ header.tag ≠ wanted) ∧
      later.filterMap Event.decoded? = extraction.atoms.map Atom.header ∧
      (run directives).taken source =
        extraction.fileType.header.size.toNat + extents later := by
  obtain ⟨before, middle, later, hleading, hatoms, hevents⟩ := exists_yields_of_run_ok h
  obtain ⟨hwell, hrest⟩ := leadingFileType_ok hleading
  rw [hrest] at hleading
  obtain ⟨hbefore, -⟩ := hleading.unique (yields_leadingFileType hwell middle source.ending)
  cases hbefore
  obtain ⟨hrecounts, hdecoded, hlength⟩ := accounted_carryOutAll hatoms
  refine ⟨later, hevents, hrecounts.executed_eq, ?_, hdecoded, ?_⟩
  · intro before header wanted after hsplit
    exact hrecounts.exists_wanted hsplit
  · rw [taken, hrest, List.length_append, hlength, hwell.length_toBytes, ← Nat.add_assoc,
      Nat.add_sub_cancel]

/-- The walk into the track passes over what is left of the movie. -/
theorem run_log_accounts_smallSource :
    (run dataBehindMovie smallSource).1.result =
        .ok ⟨plainFileType, [.raw ⟨⟨10, Tag.spelled 'm' 'd' 'a' 't'⟩, [4, 5]⟩]⟩ ∧
      ∃ later, (run dataBehindMovie smallSource).1.events =
          .fileType Tag.movieBrand true :: later ∧
        later.filterMap Event.executed? = dataBehindMovie.zipIdx ∧
        later.filterMap Event.decoded? = [⟨10, Tag.spelled 'm' 'd' 'a' 't'⟩] ∧
        69 = 16 + extents later := by
  obtain ⟨hok, htaken⟩ := run_smallSource
  obtain ⟨later, hevents, hexecuted, -, hdecoded, hsum⟩ := run_log_accounts hok
  rw [htaken] at hsum
  exact ⟨hok, later, hevents, hexecuted, hdecoded, hsum⟩

end Walk

end MovieAtoms
