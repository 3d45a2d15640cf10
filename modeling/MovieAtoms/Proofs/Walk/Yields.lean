import MovieAtoms.Proofs.Source.Contents
import MovieAtoms.Walk

/-!
# What walks come to

A walk on contents yields a log and leaves bytes. The rules below follow the way walks are put
together: a walk that goes on after a success yields both logs one after the other, and one that
fails stops there. The rules for payloads come in two kinds, for a payload that is there and for
one that is cut off.
-/

namespace MovieAtoms.Walk

/-- From every source that holds `bytes` and then ends as `ending` says, the walk yields `log` and
    leaves the bytes `left`. -/
def Yields (walk : Walk α) (bytes : Bytes) (ending : Ending) (log : Logged α) (left : Bytes) :
    Prop :=
  Source.Brings walk bytes ending log left

variable {first : Walk α} {next : α → Walk β} {bytes middle left : Bytes} {ending : Ending}

theorem Yields.unique {log log' : Logged α} {left' : Bytes} (h : first.Yields bytes ending log left)
    (h' : first.Yields bytes ending log' left') : log = log' ∧ left = left' :=
  Source.Brings.unique h h'

theorem Yields.eq {log : Logged α} (h : first.Yields bytes ending log left) {source : Source}
    (hrest : source.rest = bytes) (hending : source.ending = ending) :
    (first source).1 = log ∧ (first source).2.rest = left :=
  Source.Brings.eq h hrest hending

/-! ### Putting walks together -/

theorem yields_ofLogged (work : Logged α) : (ofLogged work).Yields bytes ending work bytes := by
  intro source hrest hending
  exact ⟨source, rfl, hrest, hending⟩

theorem yields_pure (value : α) : (pure value : Walk α).Yields bytes ending (pure value) bytes :=
  yields_ofLogged (pure value)

theorem yields_report (event : Event) :
    (report event).Yields bytes ending (Logged.report event) bytes :=
  yields_ofLogged (Logged.report event)

theorem yields_ofSource {work : Source → Except DecodeError α × Source}
    {result : Except DecodeError α} (h : Source.Brings work bytes ending result left) :
    (ofSource work).Yields bytes ending (Logged.ofExcept result) left := by
  intro source hrest hending
  obtain ⟨last, hwork, hleft, hstop⟩ := h source hrest hending
  exact ⟨last, by rw [ofSource, hwork], hleft, hstop⟩

/-- A walk that succeeded goes on with what it left. -/
theorem Yields.bind {events : List Event} {value : α} {log whole : Logged β}
    (hfirst : first.Yields bytes ending ⟨events, .ok value⟩ middle)
    (hnext : (next value).Yields middle ending log left)
    (hwhole : whole = ⟨events ++ log.events, log.result⟩) :
    (first >>= next).Yields bytes ending whole left := by
  intro source hrest hending
  obtain ⟨between, hrun, hmiddle, hstop⟩ := hfirst source hrest hending
  obtain ⟨last, hgo, hleft, hend⟩ := hnext between hmiddle hstop
  refine ⟨last, ?_, hleft, hend⟩
  change andThen first next source = _
  rw [andThen, hrun, hwhole]
  simp only [hgo]

/-- A walk that failed is the end of the whole. -/
theorem Yields.bind_error {events : List Event} {error : DecodeError}
    (hfirst : first.Yields bytes ending ⟨events, .error error⟩ left) :
    (first >>= next).Yields bytes ending ⟨events, .error error⟩ left := by
  intro source hrest hending
  obtain ⟨last, hrun, hleft, hend⟩ := hfirst source hrest hending
  refine ⟨last, ?_, hleft, hend⟩
  change andThen first next source = _
  rw [andThen, hrun]

theorem Yields.report_bind {event : Event} {log whole : Logged β} {next : Unit → Walk β}
    (h : (next ()).Yields bytes ending log left)
    (hwhole : whole = ⟨event :: log.events, log.result⟩) :
    (report event >>= next).Yields bytes ending whole left :=
  (yields_report event).bind h hwhole

theorem Yields.bind_pure {events : List Event} {value : α} {f : α → β}
    (h : first.Yields bytes ending ⟨events, .ok value⟩ left) :
    (first >>= fun value => pure (f value)).Yields bytes ending ⟨events, .ok (f value)⟩ left :=
  h.bind (yields_pure (f value)) (congrArg (Logged.mk · _) (List.append_nil events).symm)

/-! ### Payloads -/

/-- Data that are not too short for a payload begin with one. -/
theorem exists_eq_payload_append {count : Nat} (h : ¬bytes.length < count) :
    ∃ payload tail, bytes = payload ++ tail ∧ payload.length = count :=
  ⟨bytes.take count, bytes.drop count, (List.take_append_drop _ _).symm,
    List.length_take_of_le (Nat.le_of_not_lt h)⟩

theorem yields_payload {header : Header} {payload tail : Bytes}
    (h : payload.length = header.payloadLength) :
    (Walk.payload header).Yields (payload ++ tail) ending (pure payload) tail :=
  yields_ofSource (Source.readBytes_brings_append h ending)

theorem yields_payload_error {header : Header} (h : bytes.length < header.payloadLength) :
    (Walk.payload header).Yields bytes ending (Logged.fail ending.error) [] :=
  yields_ofSource (Source.readBytes_brings_error h ending)

/-- A payload that was captured stands at the front of the data. -/
theorem payload_ok {header : Header} {payload : Bytes} {events : List Event}
    (h : (Walk.payload header).Yields bytes ending ⟨events, .ok payload⟩ left) :
    bytes = payload ++ left ∧ payload.length = header.payloadLength := by
  by_cases hcut : bytes.length < header.payloadLength
  · cases (h.unique (yields_payload_error hcut)).1
  · obtain ⟨front, tail, rfl, hfront⟩ := exists_eq_payload_append hcut
    obtain ⟨hlog, rfl⟩ := h.unique (yields_payload hfront)
    cases hlog
    exact ⟨rfl, hfront⟩

theorem yields_skipPayload {header : Header} {payload tail : Bytes}
    (h : payload.length = header.payloadLength) :
    (skipPayload header).Yields (payload ++ tail) ending (pure ()) tail :=
  yields_ofSource (Source.skip_brings_append h ending)

theorem yields_skipPayload_error {header : Header} (h : bytes.length < header.payloadLength) :
    (skipPayload header).Yields bytes ending
      (Logged.fail (ending.skipError header.payloadLength bytes.length)) [] :=
  yields_ofSource (Source.skip_brings_error h ending)

/-! ### Operations -/

variable {header : Header} {payload tail : Bytes} {events : List Event}

theorem carryOut_read (header : Header) :
    carryOut .read header = atom header >>= fun record => pure (some record) := rfl

theorem carryOut_skip (header : Header) :
    carryOut .skip header = skipPayload header >>= fun _ => pure none := rfl

/-- Stepping into an atom leaves the source alone; at most it is worth a warning. -/
theorem carryOut_stepInto (header : Header) :
    carryOut .stepInto header =
      if header.tag.isContainer then pure none
      else report (.enteringNonContainer header.tag) >>= fun _ => pure none := rfl

theorem yields_stepInto (header : Header) (bytes : Bytes) (ending : Ending) :
    (carryOut .stepInto header).Yields bytes ending
      ⟨if header.tag.isContainer then [] else [.enteringNonContainer header.tag], .ok none⟩
      bytes := by
  rw [carryOut_stepInto]
  split
  · exact yields_pure none
  · exact (yields_pure none).report_bind rfl

theorem yields_skip (h : payload.length = header.payloadLength) :
    (carryOut .skip header).Yields (payload ++ tail) ending ⟨[], .ok none⟩ tail := by
  rw [carryOut_skip]
  exact (yields_skipPayload h).bind (yields_pure none) rfl

theorem yields_skip_error (h : bytes.length < header.payloadLength) :
    (carryOut .skip header).Yields bytes ending
      ⟨[], .error (ending.skipError header.payloadLength bytes.length)⟩ [] := by
  rw [carryOut_skip]
  exact (yields_skipPayload_error h).bind_error

theorem yields_read {record : Atom} (h : payload.length = header.payloadLength)
    (hdecode : Atom.ofPayload header payload = ⟨events, .ok record⟩) :
    (carryOut .read header).Yields (payload ++ tail) ending
      ⟨events ++ [.decodedAtom header], .ok (some record)⟩ tail := by
  have hrecord : (do
      let record ← ofLogged (Atom.ofPayload header payload)
      report (.decodedAtom header)
      return record : Walk Atom).Yields tail ending
        ⟨events ++ [.decodedAtom header], .ok record⟩ tail := by
    rw [hdecode]
    exact (yields_ofLogged _).bind ((yields_pure record).report_bind rfl) rfl
  rw [carryOut_read, atom]
  refine Yields.bind_pure ?_
  exact (yields_payload h).bind hrecord rfl

theorem yields_read_refused {error : DecodeError} (h : payload.length = header.payloadLength)
    (hdecode : Atom.ofPayload header payload = ⟨events, .error error⟩) :
    (carryOut .read header).Yields (payload ++ tail) ending ⟨events, .error error⟩ tail := by
  have hrecord : (do
      let record ← ofLogged (Atom.ofPayload header payload)
      report (.decodedAtom header)
      return record : Walk Atom).Yields tail ending ⟨events, .error error⟩ tail := by
    rw [hdecode]
    exact (yields_ofLogged _).bind_error
  rw [carryOut_read, atom]
  refine Yields.bind_error ?_
  exact (yields_payload h).bind hrecord rfl

theorem yields_read_error (h : bytes.length < header.payloadLength) :
    (carryOut .read header).Yields bytes ending ⟨[], .error ending.error⟩ [] := by
  rw [carryOut_read, atom]
  exact (yields_payload_error h).bind_error.bind_error

/-- A successful skip passed over the payload. -/
theorem skip_ok {found : Option Atom}
    (h : (carryOut .skip header).Yields middle ending ⟨events, .ok found⟩ left) :
    found = none ∧ ∃ payload, middle = payload ++ left ∧ payload.length = header.payloadLength := by
  by_cases hcut : middle.length < header.payloadLength
  · cases (h.unique (yields_skip_error hcut)).1
  · obtain ⟨payload, tail, rfl, hpayload⟩ := exists_eq_payload_append hcut
    obtain ⟨hlog, rfl⟩ := h.unique (yields_skip hpayload)
    cases hlog
    exact ⟨rfl, payload, rfl, hpayload⟩

theorem stepInto_ok {found : Option Atom}
    (h : (carryOut .stepInto header).Yields middle ending ⟨events, .ok found⟩ left) :
    found = none ∧ middle = left := by
  obtain ⟨hlog, rfl⟩ := h.unique (yields_stepInto header middle ending)
  cases hlog
  exact ⟨rfl, rfl⟩

/-- A successful read took the payload, as a skip does, and decoded it. -/
theorem read_ok {found : Option Atom}
    (h : (carryOut .read header).Yields middle ending ⟨events, .ok found⟩ left) :
    ∃ record payload, found = some record ∧ middle = payload ++ left ∧
      payload.length = header.payloadLength ∧
      (Atom.ofPayload header payload).result = .ok record := by
  by_cases hcut : middle.length < header.payloadLength
  · cases (h.unique (yields_read_error hcut)).1
  · obtain ⟨payload, tail, rfl, hpayload⟩ := exists_eq_payload_append hcut
    rcases hdecode : Atom.ofPayload header payload with ⟨acts, error | record⟩
    · cases (h.unique (yields_read_refused hpayload hdecode)).1
    · obtain ⟨hlog, rfl⟩ := h.unique (yields_read hpayload hdecode)
      cases hlog
      exact ⟨record, payload, rfl, rfl, hpayload, by rw [hdecode]⟩

/-! ### Directives -/

variable {index : Nat} {operation : Operation} {tag : Tag} {others : List Directive}
  {behind : Bytes} {acts : List Event}

theorem yields_carryOutAll_nil :
    (carryOutAll index []).Yields bytes ending ⟨[], .ok []⟩ bytes := yields_pure []

theorem carryOutAll_cons (index : Nat) (directive : Directive) (others : List Directive) :
    carryOutAll index (directive :: others) = (do
      let header ← findSibling directive.tag
      report (.executing index directive header.size)
      let found ← carryOut directive.operation header
      let rest ← carryOutAll (index + 1) others
      return found.toList ++ rest : Walk (List Atom)) := rfl

/-- The atom was found and treated as the first directive says, and the walk goes on. -/
theorem yields_carryOutAll_cons {found : Option Atom} {log : Logged (List Atom)}
    (hfind : Yields (findSibling tag) bytes ending ⟨events, .ok header⟩ middle)
    (hact : (carryOut operation header).Yields middle ending ⟨acts, .ok found⟩ behind)
    (hrest : (carryOutAll (index + 1) others).Yields behind ending log left) :
    (carryOutAll index (⟨operation, tag⟩ :: others)).Yields bytes ending
      ⟨events ++ .executing index ⟨operation, tag⟩ header.size :: (acts ++ log.events),
        log.result.map (found.toList ++ ·)⟩ left := by
  have hbehind : (do
      let rest ← carryOutAll (index + 1) others
      return found.toList ++ rest : Walk (List Atom)).Yields behind ending
        ⟨log.events, log.result.map (found.toList ++ ·)⟩ left := by
    obtain ⟨later, result⟩ := log
    cases result with
    | error error => exact hrest.bind_error
    | ok atoms => exact hrest.bind_pure
  rw [carryOutAll_cons]
  exact Yields.bind hfind (Yields.report_bind (Yields.bind hact hbehind rfl) rfl) rfl

theorem yields_carryOutAll_search_error {error : DecodeError}
    (hfind : Yields (findSibling tag) bytes ending ⟨events, .error error⟩ left) :
    (carryOutAll index (⟨operation, tag⟩ :: others)).Yields bytes ending
      ⟨events, .error error⟩ left := by
  rw [carryOutAll_cons]
  exact Yields.bind_error hfind

theorem yields_carryOutAll_act_error {error : DecodeError}
    (hfind : Yields (findSibling tag) bytes ending ⟨events, .ok header⟩ middle)
    (hact : (carryOut operation header).Yields middle ending ⟨acts, .error error⟩ left) :
    (carryOutAll index (⟨operation, tag⟩ :: others)).Yields bytes ending
      ⟨events ++ .executing index ⟨operation, tag⟩ header.size :: acts, .error error⟩ left := by
  rw [carryOutAll_cons]
  exact Yields.bind hfind (Yields.report_bind (Yields.bind_error hact) rfl) rfl

/-! ### The whole walk -/

theorem readHeader_ok (h : (ofSource Source.readHeader).Yields bytes ending
    ⟨events, .ok header⟩ left) :
    Header.width ≤ header.size.toNat ∧ bytes = header.toBytes ++ left := by
  by_cases hcut : bytes.length < Header.width
  · cases (h.unique (yields_ofSource (Source.readHeader_brings_error hcut ending))).1
  · obtain ⟨found, rest, rfl⟩ := Header.exists_eq_toBytes_append (Nat.le_of_not_lt hcut)
    have hread := yields_ofSource (Source.readHeader_brings_checked found rest ending)
    by_cases hsize : found.size.toNat < Header.width
    · rw [Header.checked_eq_error hsize] at hread
      cases (h.unique hread).1
    · have hcovers := Nat.le_of_not_lt hsize
      rw [Header.checked_eq_ok hcovers] at hread
      obtain ⟨hlog, rfl⟩ := h.unique hread
      cases hlog
      exact ⟨hcovers, rfl⟩

theorem yields_fileType {fileType : FileType} (hwell : fileType.WellFormed) :
    (Walk.fileType fileType.header).Yields (fileType.payload ++ tail) ending
      ⟨[], .ok fileType⟩ tail := by
  have hlength : fileType.payload.length = fileType.header.payloadLength := by
    rw [Header.payloadLength, hwell.size, Nat.add_sub_cancel_left]
  have hdecode : FileType.decode fileType.header fileType.payload = .ok fileType :=
    FileType.decode_eq_ok.mpr ⟨rfl, rfl⟩
  have hrecord : (ofLogged (Logged.ofExcept (FileType.decode fileType.header
      fileType.payload))).Yields tail ending ⟨[], .ok fileType⟩ tail := by
    rw [hdecode]
    exact yields_ofLogged _
  exact (yields_payload hlength).bind hrecord rfl

theorem yields_leadingFileType {fileType : FileType} (hwell : fileType.WellFormed) (tail : Bytes)
    (ending : Ending) :
    leadingFileType.Yields (fileType.toBytes ++ tail) ending
      ⟨[.fileType fileType.majorBrand fileType.isMovie], .ok fileType⟩ tail := by
  have hcovers : Header.width ≤ fileType.header.size.toNat := by
    rw [hwell.size]
    exact Nat.le_add_right _ _
  have hheader := Source.readHeader_brings_checked fileType.header (fileType.payload ++ tail) ending
  rw [Header.checked_eq_ok hcovers] at hheader
  have hbehind : (if fileType.header.tag = Tag.fileType then do
        let found ← Walk.fileType fileType.header
        report (.fileType found.majorBrand found.isMovie)
        return found
      else fail (.notMovie fileType.header.tag) : Walk FileType).Yields
        (fileType.payload ++ tail) ending
        ⟨[.fileType fileType.majorBrand fileType.isMovie], .ok fileType⟩ tail := by
    rw [if_pos hwell.tag]
    exact (yields_fileType hwell).bind ((yields_pure fileType).report_bind rfl) rfl
  rw [leadingFileType, FileType.toBytes, List.append_assoc]
  exact (yields_ofSource hheader).bind hbehind rfl

/-- Once the file type is there, the outcome is that of the directives. -/
theorem yields_run {directives : List Directive} {fileType : FileType} {log : Logged (List Atom)}
    (hleading : leadingFileType.Yields bytes ending ⟨events, .ok fileType⟩ middle)
    (hatoms : (carryOutAll 0 directives).Yields middle ending log left) :
    (run directives).Yields bytes ending
      ⟨events ++ log.events, log.result.map fun atoms => ⟨fileType, atoms⟩⟩ left := by
  obtain ⟨later, result⟩ := log
  cases result with
  | error error => exact hleading.bind hatoms.bind_error rfl
  | ok atoms => exact hleading.bind hatoms.bind_pure rfl

end MovieAtoms.Walk
