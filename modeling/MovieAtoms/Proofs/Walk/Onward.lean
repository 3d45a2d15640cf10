import MovieAtoms.Proofs.Walk.Search

/-!
# Walks take no more than they need

A walk settles on the bytes that decide its outcome: whatever follows them, and however their source
ends, it takes just these bytes and yields the same log. On fewer bytes it stops, which means that
it takes them all and fails as the end of the source says. A walk that does one or the other on all
data is called onward. The payloads, the headers and the search are onward, putting onward walks
together gives onward walks, and so the first main statement is `onward_run`. The others say what
follows for every onward walk: its outcome depends on the contents of the source only
(`Onward.eq_of_contents`), it never goes back (`Onward.rest_eq_drop`), and where it succeeds the
bytes that it takes settle it (`Onward.settles_of_ok`) while fewer stop it (`Onward.stops_of_cut`).
-/

namespace MovieAtoms.Walk

/-- Whatever follows `used`, the walk takes just these bytes and yields `log`. -/
def Settles (walk : Walk α) (used : Bytes) (log : Logged α) : Prop :=
  ∀ tail ending, walk.Yields (used ++ tail) ending log tail

/-- The walk needs more than `bytes`: it takes them all and fails as the end of the source says. -/
def Stops (walk : Walk α) (bytes : Bytes) : Prop :=
  ∀ ending : Ending, ∃ events error, ending.Explains error ∧
    walk.Yields bytes ending ⟨events, .error error⟩ []

def Onward (walk : Walk α) : Prop :=
  ∀ bytes, (∃ used tail log, bytes = used ++ tail ∧ walk.Settles used log) ∨ walk.Stops bytes

/-- The number of bytes that a walk takes from a source. -/
def taken (walk : Walk α) (source : Source) : Nat :=
  source.rest.length - (walk source).2.rest.length

variable {first : Walk α} {next : α → Walk β} {used more bytes tail : Bytes} {events : List Event}
  {value : α}

/-! ### Walks that are put together -/

theorem Settles.bind {log : Logged β} (hfirst : first.Settles used ⟨events, .ok value⟩)
    (hnext : (next value).Settles more log) :
    (first >>= next).Settles (used ++ more) ⟨events ++ log.events, log.result⟩ := by
  intro tail ending
  rw [List.append_assoc]
  exact (hfirst (more ++ tail) ending).bind (hnext tail ending) rfl

theorem Settles.bind_error {error : DecodeError}
    (hfirst : first.Settles used ⟨events, .error error⟩) :
    (first >>= next).Settles used ⟨events, .error error⟩ :=
  fun tail ending => (hfirst tail ending).bind_error

theorem Settles.bind_stops (hfirst : first.Settles used ⟨events, .ok value⟩)
    (hnext : (next value).Stops tail) : (first >>= next).Stops (used ++ tail) := by
  intro ending
  obtain ⟨others, error, hexplains, hyields⟩ := hnext ending
  exact ⟨events ++ others, error, hexplains, (hfirst tail ending).bind hyields rfl⟩

theorem Stops.bind (hfirst : first.Stops bytes) : (first >>= next).Stops bytes := by
  intro ending
  obtain ⟨events, error, hexplains, hyields⟩ := hfirst ending
  exact ⟨events, error, hexplains, hyields.bind_error⟩

theorem Onward.bind (hfirst : first.Onward) (hnext : ∀ value, (next value).Onward) :
    (first >>= next).Onward := by
  intro bytes
  rcases hfirst bytes with ⟨used, tail, ⟨events, result⟩, rfl, hsettles⟩ | hstops
  · cases result with
    | error error => exact Or.inl ⟨used, tail, _, rfl, hsettles.bind_error⟩
    | ok value =>
        rcases hnext value tail with ⟨more, rest, log, rfl, hmore⟩ | hstops
        · exact Or.inl ⟨used ++ more, rest, _, (List.append_assoc ..).symm, hsettles.bind hmore⟩
        · exact Or.inr (hsettles.bind_stops hstops)
  · exact Or.inr hstops.bind

/-! ### The parts of a walk -/

theorem onward_ofLogged (work : Logged α) : (ofLogged work).Onward :=
  fun bytes => Or.inl ⟨[], bytes, work, rfl, fun _ _ => yields_ofLogged work⟩

theorem onward_pure (value : α) : (pure value : Walk α).Onward := onward_ofLogged (pure value)

theorem onward_report (event : Event) : (report event).Onward :=
  onward_ofLogged (Logged.report event)

theorem onward_payload (header : Header) : (payload header).Onward := by
  intro bytes
  by_cases hshort : bytes.length < header.payloadLength
  · exact Or.inr fun ending => ⟨[], _, ending.explains_error, yields_payload_error hshort⟩
  · obtain ⟨front, tail, rfl, hfront⟩ := exists_eq_payload_append hshort
    exact Or.inl ⟨front, tail, _, rfl, fun _ _ => yields_payload hfront⟩

theorem onward_skipPayload (header : Header) : (skipPayload header).Onward := by
  intro bytes
  by_cases hshort : bytes.length < header.payloadLength
  · exact Or.inr fun ending =>
      ⟨[], _, ending.explains_skipError _ _, yields_skipPayload_error hshort⟩
  · obtain ⟨front, tail, rfl, hfront⟩ := exists_eq_payload_append hshort
    exact Or.inl ⟨front, tail, _, rfl, fun _ _ => yields_skipPayload hfront⟩

theorem onward_readHeader : (ofSource Source.readHeader).Onward := by
  intro bytes
  by_cases hshort : bytes.length < Header.width
  · exact Or.inr fun ending => ⟨[], _, ending.explains_error,
      yields_ofSource (Source.readHeader_brings_error hshort ending)⟩
  · obtain ⟨header, rest, rfl⟩ := Header.exists_eq_toBytes_append (Nat.le_of_not_lt hshort)
    exact Or.inl ⟨header.toBytes, rest, _, rfl, fun tail ending =>
      yields_ofSource (Source.readHeader_brings_checked header tail ending)⟩

theorem onward_findSibling (tag : Tag) : Onward (findSibling tag) := by
  intro bytes
  rcases search_cases tag bytes with ⟨used, tail, log, rfl, hsearch⟩ | hstops
  · exact Or.inl ⟨used, tail, log, rfl, fun tail' ending =>
      yields_of_search (hsearch tail' ending)⟩
  · refine Or.inr fun ending => ?_
    obtain ⟨events, error, hexplains, hsearch⟩ := hstops ending
    exact ⟨events, error, hexplains, yields_of_search hsearch⟩

theorem onward_fileType (header : Header) : (fileType header).Onward :=
  (onward_payload header).bind fun _ => onward_ofLogged _

theorem onward_atom (header : Header) : (atom header).Onward := by
  refine (onward_payload header).bind fun bytes => ?_
  refine (onward_ofLogged _).bind fun atom => ?_
  exact (onward_report _).bind fun _ => onward_pure atom

theorem onward_carryOut (operation : Operation) (header : Header) :
    (carryOut operation header).Onward := by
  cases operation with
  | read => exact (onward_atom header).bind fun atom => onward_pure (some atom)
  | stepInto =>
      rw [carryOut_stepInto]
      split
      · exact onward_pure none
      · exact (onward_report _).bind fun _ => onward_pure none
  | skip => exact (onward_skipPayload header).bind fun _ => onward_pure none

theorem exists_settles_read {header : Header} {payload : Bytes}
    (h : payload.length = header.payloadLength) :
    ∃ log, (carryOut .read header).Settles payload log := by
  rcases hdecode : Atom.ofPayload header payload with ⟨events, error | record⟩
  · exact ⟨_, fun _ _ => yields_read_refused h hdecode⟩
  · exact ⟨_, fun _ _ => yields_read h hdecode⟩

theorem onward_carryOutAll (index : Nat) (directives : List Directive) :
    (carryOutAll index directives).Onward := by
  induction directives generalizing index with
  | nil => exact onward_pure []
  | cons directive others ih =>
      refine (onward_findSibling directive.tag).bind fun header => ?_
      refine (onward_report _).bind fun _ => ?_
      refine (onward_carryOut directive.operation header).bind fun found => ?_
      exact (ih (index + 1)).bind fun rest => onward_pure _

/-- Behind its header, the leading atom has to be a file type. -/
theorem onward_ifFileType (header : Header) :
    (if header.tag = Tag.fileType then do
      let found ← fileType header
      report (.fileType found.majorBrand found.isMovie)
      return found
    else fail (.notMovie header.tag) : Walk FileType).Onward := by
  split
  · refine (onward_fileType header).bind fun found => ?_
    exact (onward_report _).bind fun _ => onward_pure found
  · exact onward_ofLogged _

theorem onward_leadingFileType : leadingFileType.Onward :=
  onward_readHeader.bind onward_ifFileType

theorem onward_run (directives : List Directive) : (run directives).Onward := by
  refine onward_leadingFileType.bind fun fileType => ?_
  exact (onward_carryOutAll 0 directives).bind fun atoms => onward_pure _

/-! ### What onward walks take -/

variable {walk : Walk α} {log : Logged α}

theorem Onward.exists_yields (h : walk.Onward) (bytes : Bytes) (ending : Ending) :
    ∃ log used left, bytes = used ++ left ∧ walk.Yields bytes ending log left := by
  rcases h bytes with ⟨used, tail, log, rfl, hsettles⟩ | hstops
  · exact ⟨log, used, tail, rfl, hsettles tail ending⟩
  · obtain ⟨events, error, -, hyields⟩ := hstops ending
    exact ⟨_, bytes, [], (List.append_nil bytes).symm, hyields⟩

/-- Where the whole succeeds, both parts did, one after the other. -/
theorem Onward.exists_of_bind_ok (hfirst : first.Onward) (hnext : ∀ value, (next value).Onward)
    {ending : Ending} {left : Bytes} {result : β}
    (h : (first >>= next).Yields bytes ending ⟨events, .ok result⟩ left) :
    ∃ before value middle after, first.Yields bytes ending ⟨before, .ok value⟩ middle ∧
      (next value).Yields middle ending ⟨after, .ok result⟩ left := by
  obtain ⟨⟨before, outcome⟩, -, middle, -, hstart⟩ := hfirst.exists_yields bytes ending
  cases outcome with
  | error error => cases (h.unique hstart.bind_error).1
  | ok value =>
      obtain ⟨⟨after, outcome⟩, -, last, -, hgo⟩ := (hnext value).exists_yields middle ending
      obtain ⟨hlog, rfl⟩ := h.unique (hstart.bind hgo rfl)
      cases hlog
      exact ⟨before, value, middle, after, hstart, hgo⟩

theorem Onward.length_left_le (h : walk.Onward) {ending : Ending} {left : Bytes}
    (hyields : walk.Yields bytes ending log left) : left.length ≤ bytes.length := by
  obtain ⟨log', used, left', rfl, hyields'⟩ := h.exists_yields bytes ending
  obtain ⟨-, rfl⟩ := hyields.unique hyields'
  rw [List.length_append]
  exact Nat.le_add_left _ _

/-- Of the bytes that a walk leaves, it knows at most how many there are. -/
theorem Onward.yields_of_length_eq (h : walk.Onward) {ending : Ending} {left left' : Bytes}
    (hyields : walk.Yields (used ++ left) ending log left) (hlength : left'.length = left.length) :
    walk.Yields (used ++ left') ending log left' := by
  rcases h (used ++ left) with ⟨used', tail, log', hsplit, hsettles⟩ | hstops
  · have hfirst := hsettles tail ending
    rw [← hsplit] at hfirst
    obtain ⟨rfl, rfl⟩ := hyields.unique hfirst
    rw [List.append_cancel_right hsplit]
    exact hsettles left' ending
  · obtain ⟨events, error, -, hfirst⟩ := hstops ending
    obtain ⟨rfl, rfl⟩ := hyields.unique hfirst
    rw [List.eq_nil_of_length_eq_zero hlength]
    exact hyields

/-- The schedule by which a source delivers its bytes is of no consequence. -/
theorem Onward.eq_of_contents (h : walk.Onward) {source other : Source}
    (hrest : source.rest = other.rest) (hending : source.ending = other.ending) :
    (walk source).1 = (walk other).1 ∧ (walk source).2.rest = (walk other).2.rest := by
  obtain ⟨log, used, left, -, hyields⟩ := h.exists_yields other.rest other.ending
  obtain ⟨hlog, hleft⟩ := hyields.eq hrest hending
  obtain ⟨hlog', hleft'⟩ := hyields.eq rfl rfl
  exact ⟨hlog.trans hlog'.symm, hleft.trans hleft'.symm⟩

theorem Onward.rest_eq_drop (h : walk.Onward) (source : Source) :
    (walk source).2.rest = source.rest.drop (walk.taken source) := by
  obtain ⟨log, used, left, hsplit, hyields⟩ := h.exists_yields source.rest source.ending
  rw [taken, (hyields.eq rfl rfl).2, hsplit, List.length_append, Nat.add_sub_cancel,
    List.drop_left]

theorem taken_eq_of_yields {ending : Ending} {left : Bytes} {source : Source}
    (h : walk.Yields (used ++ left) ending log left) (hrest : source.rest = used ++ left)
    (hending : source.ending = ending) : walk.taken source = used.length := by
  rw [taken, (h.eq hrest hending).2, hrest, List.length_append, Nat.add_sub_cancel]

/-- The bytes that a successful walk takes settle it. -/
theorem Onward.settles_of_ok (h : walk.Onward) {source : Source} {value : α}
    (hok : (walk source).1.result = .ok value) :
    ∃ events, walk.Settles (source.rest.take (walk.taken source)) ⟨events, .ok value⟩ := by
  rcases h source.rest with ⟨used, tail, ⟨events, result⟩, hsplit, hsettles⟩ | hstops
  · have hyields := hsettles tail source.ending
    have hresult : result = .ok value := by
      rw [← hok, (hyields.eq hsplit rfl).1]
    subst hresult
    rw [taken_eq_of_yields hyields hsplit rfl, hsplit, List.take_left]
    exact ⟨events, hsettles⟩
  · obtain ⟨events, error, -, hyields⟩ := hstops source.ending
    rw [(hyields.eq rfl rfl).1] at hok
    cases hok

/-- A proper part of the bytes that settle a walk stops it: it cannot settle on the part, since then
    it would leave the lost bytes when they are there. -/
theorem Onward.stops_of_cut (h : walk.Onward) {short lost : Bytes}
    (hsettles : walk.Settles (short ++ lost) log) (hlost : lost ≠ []) : walk.Stops short := by
  rcases h short with ⟨used, tail, log', rfl, hshort⟩ | hstops
  · have hwhole := hsettles [] .endOfInput
    have hpart := hshort (tail ++ lost) .endOfInput
    rw [List.append_nil, List.append_assoc] at hwhole
    have hleft : [] = tail ++ lost := (hwhole.unique hpart).2
    exact absurd (List.append_eq_nil_iff.mp hleft.symm).2 hlost
  · exact hstops

/-- Directives stop at a search, or at what is done with the atom that was found, or they go on. -/
theorem carryOutAll_cases {index : Nat} {operation : Operation} {tag : Tag}
    {others : List Directive} {ending : Ending} {log : Logged (List Atom)} {left : Bytes}
    (h : (carryOutAll index (⟨operation, tag⟩ :: others)).Yields bytes ending log left) :
    (∃ events error, Search tag ending bytes ⟨events, .error error⟩ left ∧
      log = ⟨events, .error error⟩) ∨
    ∃ events header middle acts, Search tag ending bytes ⟨events, .ok header⟩ middle ∧
      ((∃ error, (carryOut operation header).Yields middle ending ⟨acts, .error error⟩ left ∧
        log = ⟨events ++ .executing index ⟨operation, tag⟩ header.size :: acts, .error error⟩) ∨
      ∃ found behind rest,
        (carryOut operation header).Yields middle ending ⟨acts, .ok found⟩ behind ∧
        (carryOutAll (index + 1) others).Yields behind ending rest left ∧
        log = ⟨events ++ .executing index ⟨operation, tag⟩ header.size :: (acts ++ rest.events),
          rest.result.map (found.toList ++ ·)⟩) := by
  obtain ⟨⟨events, result⟩, middle, hsearch⟩ := exists_search tag ending bytes
  have hfind := yields_of_search hsearch
  cases result with
  | error error =>
      obtain ⟨rfl, rfl⟩ := h.unique (yields_carryOutAll_search_error hfind)
      exact Or.inl ⟨events, error, hsearch, rfl⟩
  | ok header =>
      refine Or.inr ⟨events, header, middle, ?_⟩
      obtain ⟨⟨acts, result⟩, -, behind, -, hact⟩ :=
        (onward_carryOut operation header).exists_yields middle ending
      cases result with
      | error error =>
          obtain ⟨rfl, rfl⟩ := h.unique (yields_carryOutAll_act_error hfind hact)
          exact ⟨acts, hsearch, Or.inl ⟨error, hact, rfl⟩⟩
      | ok found =>
          obtain ⟨rest, -, last, -, hrest⟩ :=
            (onward_carryOutAll (index + 1) others).exists_yields behind ending
          obtain ⟨rfl, rfl⟩ := h.unique (yields_carryOutAll_cons hfind hact hrest)
          exact ⟨acts, hsearch, Or.inr ⟨found, behind, rest, hact, hrest, rfl⟩⟩

/-- A longer front of the data is a shorter one and what it lacks. -/
theorem take_eq_take_append {count longer : Nat} (h : count ≤ longer) (data : Bytes) :
    data.take longer = data.take count ++ (data.take longer).drop count :=
  calc
    data.take longer = (data.take longer).take count ++ (data.take longer).drop count :=
      (List.take_append_drop count _).symm
    _ = data.take count ++ (data.take longer).drop count := by
      rw [List.take_take, Nat.min_eq_left h]

theorem length_take_taken (walk : Walk α) (source : Source) :
    (source.rest.take (walk.taken source)).length = walk.taken source :=
  List.length_take_of_le (Nat.sub_le _ _)

/-- After the bytes that a successful walk takes, anything may follow. -/
theorem Onward.ok_of_append (h : walk.Onward) {source other : Source} {value : α}
    (hok : (walk source).1.result = .ok value)
    (hrest : other.rest = source.rest.take (walk.taken source) ++ tail) :
    (walk other).1.result = .ok value ∧ walk.taken other = walk.taken source := by
  obtain ⟨events, hsettles⟩ := h.settles_of_ok hok
  have hyields := hsettles tail other.ending
  refine ⟨by rw [(hyields.eq hrest rfl).1], ?_⟩
  rw [taken_eq_of_yields hyields hrest rfl, length_take_taken]

/-- A part of the bytes that a successful walk takes leads to a failure at the end of the part. -/
theorem Onward.error_of_cut (h : walk.Onward) {source short : Source} {value : α} {count : Nat}
    (hok : (walk source).1.result = .ok value) (hcount : count < walk.taken source)
    (hrest : short.rest = source.rest.take count) :
    ∃ error, (walk short).1.result = .error error ∧ short.ending.Explains error ∧
      walk.taken short = count := by
  obtain ⟨events, hsettles⟩ := h.settles_of_ok hok
  have hlength := length_take_taken walk source
  have hsplit := take_eq_take_append (Nat.le_of_lt hcount) source.rest
  have hlost : (source.rest.take (walk.taken source)).drop count ≠ [] := by
    intro hnil
    have hle := List.drop_eq_nil_iff.mp hnil
    omega
  rw [hsplit, ← hrest] at hsettles
  obtain ⟨others, error, hexplains, hyields⟩ := h.stops_of_cut hsettles hlost short.ending
  refine ⟨error, by rw [(hyields.eq rfl rfl).1], hexplains, ?_⟩
  have hshort : short.rest.length = count := by
    rw [hrest]
    exact List.length_take_of_le (Nat.le_trans (Nat.le_of_lt hcount) (Nat.sub_le _ _))
  rw [← List.append_nil short.rest] at hyields
  rw [taken_eq_of_yields hyields (List.append_nil _).symm rfl, hshort]

end MovieAtoms.Walk
