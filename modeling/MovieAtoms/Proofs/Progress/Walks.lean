import MovieAtoms.Proofs.Progress.Calls
import MovieAtoms.Proofs.Progress.Decoders
import MovieAtoms.Proofs.Source.Counted
import MovieAtoms.Proofs.Source.Headers
import MovieAtoms.Walk

/-!
# Walks that come to an end

A walk is put together from loops: those that call the source, one that searches for a tag, and those
of decoding. Here all of them are loops that nothing bounds, and the walk around them is written
without saying why it ends. Main statement: `decodeLoops_progress`. Each pass of the search and of
the loops of decoding takes the width of a header at least, of bytes that are there; so none makes
more passes than that width goes into its bytes, and every walk on every source ends, with what
`Walk.run` says.
-/

namespace MovieAtoms.Unbounded

/-! ### Searching for a tag -/

/-- Where a search stands: the atoms that it has passed over, and the source behind them. -/
structure Scan where
  passed : List Header
  source : Source

namespace Scan

def start (source : Source) : Scan := ⟨[], source⟩

def unread (scan : Scan) : Bytes := scan.source.rest

/-- The complete headers that a search has looked at after its pass from here: those of the atoms
    that it has passed over, and one more if the pass takes a whole one off the source. -/
def looked (scan : Scan) : Nat :=
  scan.passed.length +
    (scan.unread.length - scan.source.tryReadHeader.2.rest.length) / Header.width

/-- What is reported of atoms that were passed over. -/
def reports (tag : Tag) (passed : List Header) : List Event :=
  passed.map fun header => .skippingSibling header tag

/-- The search goes on from what it has read. -/
def proceed (tag : Tag) (passed : List Header) :
    Except DecodeError (Option Header) × Source → Part ((Logged Header × Source) ⊕ Scan)
  | (.error error, next) => Part.some (.inl (⟨reports tag passed, .error error⟩, next))
  | (.ok none, next) =>
      Part.some (.inl (⟨reports tag passed, .error (.targetNotFound tag)⟩, next))
  | (.ok (some header), next) =>
      if header.tag = tag then Part.some (.inl (⟨reports tag passed, .ok header⟩, next))
      else
        (skip header.payloadLength next).map fun
          | (.error error, last) => .inl (⟨reports tag (passed ++ [header]), .error error⟩, last)
          | (.ok (), last) => .inr ⟨passed ++ [header], last⟩

/-- What the search comes to from here. -/
def outcome (tag : Tag) (scan : Scan) : Logged Header × Source :=
  let (log, next) := Walk.findSibling tag scan.source
  (⟨reports tag scan.passed ++ log.events, log.result⟩, next)

theorem reports_concat (tag : Tag) (passed : List Header) (header : Header) :
    reports tag (passed ++ [header]) = reports tag passed ++ [.skippingSibling header tag] := by
  simp [reports]

end Scan

def scanLoop (tag : Tag) : Loop Scan (Logged Header × Source) := fun scan =>
  (tryReadHeader scan.source).bind (Scan.proceed tag scan.passed)

def findSibling (tag : Tag) (source : Source) : Part (Logged Header × Source) :=
  PFun.fix (scanLoop tag) (.start source)

section

variable {tag : Tag} {scan next : Scan}

theorem scanLoop_eq (tag : Tag) (scan : Scan) :
    scanLoop tag scan = Scan.proceed tag scan.passed scan.source.tryReadHeader := by
  rw [scanLoop, tryReadHeader_eq, Part.bind_some]

/-- A pass that leads on has read a header and skipped the payload that it states. -/
theorem goes_scanLoop (h : (scanLoop tag).Goes scan next) :
    ∃ header middle, scan.source.tryReadHeader = (.ok (some header), middle) ∧
      middle.skip header.payloadLength = (.ok (), next.source) ∧
      next.passed = scan.passed ++ [header] := by
  rw [Loop.Goes, scanLoop_eq] at h
  rcases hread : scan.source.tryReadHeader with ⟨error | (_ | header), middle⟩
  · rw [hread] at h
    cases Part.mem_some_iff.mp h
  · rw [hread] at h
    cases Part.mem_some_iff.mp h
  · rw [hread, Scan.proceed] at h
    split at h
    · cases Part.mem_some_iff.mp h
    rw [skip_eq, Part.map_some, Part.mem_some_iff] at h
    split at h
    · cases h
    · rename_i last hskip
      cases h
      exact ⟨header, middle, rfl, hskip, rfl⟩

theorem computes_scanLoop (tag : Tag) (scan : Scan) :
    (scanLoop tag).Computes (Scan.outcome tag) scan := by
  rw [Loop.Computes, scanLoop_eq, Scan.outcome, Walk.findSibling]
  rcases hread : scan.source.tryReadHeader with ⟨error | (_ | header), middle⟩
  · left
    simp [Scan.proceed, Logged.fail]
  · left
    simp [Scan.proceed, Logged.fail]
  · rw [Scan.proceed, skip_eq, Part.map_some]
    by_cases htag : header.tag = tag
    · left
      simp [htag, pure]
    · simp only [if_neg htag]
      rcases hskip : middle.skip header.payloadLength with ⟨error | _, last⟩
      · left
        simp [Scan.reports_concat]
      · refine Or.inr ⟨⟨scan.passed ++ [header], last⟩, rfl, ?_⟩
        simp [Scan.outcome, Scan.reports_concat]

theorem consumes_scanLoop (tag : Tag) : (scanLoop tag).Consumes Scan.unread := by
  intro scan next hgoes
  obtain ⟨header, middle, hread, hskip, -⟩ := goes_scanLoop hgoes
  obtain ⟨hlong, hmiddle⟩ := Source.rest_of_tryReadHeader_eq_some hread
  -- the header alone is enough; the payload, of whatever length is stated, adds to it
  have hnext : next.unread = scan.unread.drop (Header.width + header.payloadLength) := by
    rw [Scan.unread, Source.rest_of_skip_eq_ok hskip, hmiddle, List.drop_drop, Scan.unread]
  refine ⟨scan.unread.take (Header.width + header.payloadLength), ?_, ?_⟩
  · rw [hnext, List.take_append_drop]
  · rw [List.length_take]
    exact Nat.le_min.mpr ⟨Nat.le_add_right _ _, hlong⟩

theorem passed_of_goes (h : (scanLoop tag).Goes scan next) :
    next.passed.length = scan.passed.length + 1 := by
  obtain ⟨header, middle, -, -, hpassed⟩ := goes_scanLoop h
  simp [hpassed]

/-- The count takes in the pass that is under way, which may find the tag, or fail, and so need not
    lead on; it is paid for with the bytes that are still unread. -/
theorem looked_le {source : Source} (h : (scanLoop tag).Reaches (.start source) scan) :
    scan.looked ≤ source.rest.length / Header.width := by
  have hpaid : Header.width * scan.passed.length + scan.unread.length ≤
      Header.width * 0 + source.rest.length :=
    (consumes_scanLoop tag).count_le (fun _ _ => passed_of_goes) h
  rw [Header.width] at hpaid
  rw [Scan.looked, Header.width]
  omega

theorem progresses_scanLoop (tag : Tag) (source : Source) :
    (scanLoop tag).Progresses Scan.unread Scan.looked (.start source)
      (Walk.findSibling tag source) where
  consumes := consumes_scanLoop tag
  count_le := fun _ => looked_le
  ends := (consumes_scanLoop tag).fix_eq_some (computes_scanLoop tag) (.start source)

theorem findSibling_eq (tag : Tag) (source : Source) :
    findSibling tag source = Part.some (Walk.findSibling tag source) :=
  (progresses_scanLoop tag source).ends

end

/-! ### Walks -/

/-- A walk that may not end. -/
def Course (α : Type) := Source → Part (Logged α × Source)

namespace Course

/-- The course ends on every source, with what the walk comes to. -/
def Ends (course : Course α) (walk : Walk α) : Prop :=
  ∀ source, course source = Part.some (walk source)

def ofSource (work : Source → Part (Except DecodeError α × Source)) : Course α := fun source =>
  (work source).map fun (result, next) => (Logged.ofExcept result, next)

def ofLogged (work : Part (Logged α)) : Course α := fun source =>
  work.map fun log => (log, source)

/-- Goes on after success with the source that is left, once the first course has ended. -/
def andThen (first : Course α) (next : α → Course β) : Course β := fun source =>
  (first source).bind fun
    | (⟨events, .ok value⟩, rest) =>
        (next value rest).map fun (log, last) => (⟨events ++ log.events, log.result⟩, last)
    | (⟨events, .error error⟩, rest) => Part.some (⟨events, .error error⟩, rest)

instance : Monad Course where
  pure value := ofLogged (Part.some (pure value))
  bind := andThen

def fail (error : DecodeError) : Course α := ofLogged (Part.some (Logged.fail error))

def report (event : Event) : Course Unit := ofLogged (Part.some (Logged.report event))

def payload (header : Header) : Course Bytes := ofSource (readBytes header.payloadLength)

def skipPayload (header : Header) : Course Unit := ofSource (skip header.payloadLength)

theorem ends_ofSource {work : Source → Part (Except DecodeError α × Source)}
    {bounded : Source → Except DecodeError α × Source}
    (h : ∀ source, work source = Part.some (bounded source)) :
    (ofSource work).Ends (Walk.ofSource bounded) := by
  intro source
  rw [ofSource, h, Part.map_some]
  rfl

theorem ends_ofLogged {work : Part (Logged α)} {bounded : Logged α}
    (h : work = Part.some bounded) : (ofLogged work).Ends (Walk.ofLogged bounded) := by
  intro source
  rw [ofLogged, h, Part.map_some]
  rfl

theorem ends_pure (value : α) : (pure value : Course α).Ends (pure value) :=
  ends_ofLogged rfl

theorem ends_fail (error : DecodeError) : (fail error : Course α).Ends (Walk.fail error) :=
  ends_ofLogged rfl

theorem ends_report (event : Event) : (report event).Ends (Walk.report event) :=
  ends_ofLogged rfl

theorem ends_payload (header : Header) : (payload header).Ends (Walk.payload header) :=
  ends_ofSource (readBytes_eq header.payloadLength)

theorem ends_skipPayload (header : Header) :
    (skipPayload header).Ends (Walk.skipPayload header) :=
  ends_ofSource (skip_eq header.payloadLength)

theorem Ends.bind {first : Course α} {walk : Walk α} {next : α → Course β} {others : α → Walk β}
    (hfirst : first.Ends walk) (hnext : ∀ value, (next value).Ends (others value)) :
    (first >>= next).Ends (walk >>= others) := by
  intro source
  change first.andThen next source = Part.some (walk.andThen others source)
  rw [andThen, hfirst source, Part.bind_some, Walk.andThen]
  rcases walk source with ⟨⟨events, error | value⟩, rest⟩
  · rfl
  · simp only [hnext value rest, Part.map_some]

end Course

/-! ### The parts of a walk -/

/-- Only the payload of a sample table takes loops to decode. -/
def decodePayload (header : Header) (payload : Bytes) : Part (Logged Atom) :=
  if header.tag = Tag.movieHeader then
    Part.some (Logged.ofExcept ((MovieHeader.decode header payload).map .movieHeader))
  else if header.tag = Tag.sampleTable then
    (decodeTable header payload).map fun log => .sampleTable <$> log
  else Part.some (return .raw ⟨header, payload⟩)

theorem decodePayload_eq (header : Header) (payload : Bytes) :
    decodePayload header payload = Part.some (Atom.ofPayload header payload) := by
  rw [decodePayload, Atom.ofPayload, decodeTable_eq, Part.map_some]
  split
  · rfl
  split
  · rfl
  · rfl

def atom (header : Header) : Course Atom := do
  let bytes ← Course.payload header
  let atom ← Course.ofLogged (decodePayload header bytes)
  Course.report (.decodedAtom header)
  return atom

def fileType (header : Header) : Course FileType := do
  let bytes ← Course.payload header
  Course.ofLogged (Part.some (Logged.ofExcept (FileType.decode header bytes)))

def carryOut (operation : Operation) (header : Header) : Course (Option Atom) :=
  match operation with
  | .read => do
      let found ← atom header
      return some found
  | .stepInto => do
      unless header.tag.isContainer do
        Course.report (.enteringNonContainer header.tag)
      return none
  | .skip => do
      Course.skipPayload header
      return none

def carryOutAll (index : Nat) : List Directive → Course (List Atom)
  | [] => return []
  | directive :: others => do
      let header ← findSibling directive.tag
      Course.report (.executing index directive header.size)
      let found ← carryOut directive.operation header
      let rest ← carryOutAll (index + 1) others
      return found.toList ++ rest

def leadingFileType : Course FileType := do
  let header ← Course.ofSource readHeader
  if header.tag = Tag.fileType then
    let found ← fileType header
    Course.report (.fileType found.majorBrand found.isMovie)
    return found
  else Course.fail (.notMovie header.tag)

def run (directives : List Directive) : Course Extraction := do
  let fileType ← leadingFileType
  let atoms ← carryOutAll 0 directives
  return { fileType, atoms }

/-! ### Every walk ends -/

theorem ends_atom (header : Header) : (atom header).Ends (Walk.atom header) := by
  apply (Course.ends_payload header).bind
  intro bytes
  apply (Course.ends_ofLogged (decodePayload_eq header bytes)).bind
  intro found
  apply (Course.ends_report _).bind
  intro _
  exact Course.ends_pure found

theorem ends_fileType (header : Header) : (fileType header).Ends (Walk.fileType header) := by
  apply (Course.ends_payload header).bind
  intro bytes
  exact Course.ends_ofLogged rfl

theorem ends_carryOut (operation : Operation) (header : Header) :
    (carryOut operation header).Ends (Walk.carryOut operation header) := by
  cases operation with
  | read =>
      apply (ends_atom header).bind
      intro found
      exact Course.ends_pure (some found)
  | stepInto =>
      rw [carryOut, Walk.carryOut]
      split
      · exact Course.ends_pure none
      · apply (Course.ends_report _).bind
        intro _
        exact Course.ends_pure none
  | skip =>
      apply (Course.ends_skipPayload header).bind
      intro _
      exact Course.ends_pure none

theorem ends_carryOutAll (index : Nat) (directives : List Directive) :
    (carryOutAll index directives).Ends (Walk.carryOutAll index directives) := by
  induction directives generalizing index with
  | nil => exact Course.ends_pure []
  | cons directive others ih =>
      -- the search is the one part whose end depends on the sizes that the source states
      apply Course.Ends.bind (findSibling_eq directive.tag)
      intro header
      apply (Course.ends_report _).bind
      intro _
      apply (ends_carryOut directive.operation header).bind
      intro found
      apply (ih (index + 1)).bind
      intro rest
      exact Course.ends_pure (found.toList ++ rest)

theorem ends_leadingFileType : leadingFileType.Ends Walk.leadingFileType := by
  apply (Course.ends_ofSource readHeader_eq).bind
  intro header
  split
  · apply (ends_fileType header).bind
    intro found
    apply (Course.ends_report _).bind
    intro _
    exact Course.ends_pure found
  · exact Course.ends_fail _

theorem ends_run (directives : List Directive) : (run directives).Ends (Walk.run directives) := by
  apply ends_leadingFileType.bind
  intro fileType
  apply (ends_carryOutAll 0 directives).bind
  intro atoms
  exact Course.ends_pure _

/-- Every loop makes progress on every input, and every walk ends. A pass that leads on takes the
    width of a header at least, of bytes that are there, so the bytes bound the headers that a search
    looks at, the entries of a table, whatever number it declares, and the extensions of a chain. -/
theorem decodeLoops_progress :
    (∀ tag source, (scanLoop tag).Progresses Scan.unread Scan.looked (.start source)
      (Walk.findSibling tag source)) ∧
    (∀ header payload, TableProgresses header payload) ∧
    (∀ chain, ChainProgresses chain) ∧
    ∀ directives source, run directives source = Part.some (Walk.run directives source) :=
  ⟨progresses_scanLoop, decodeTable_progresses, decodeChain_progresses, ends_run⟩

end MovieAtoms.Unbounded
