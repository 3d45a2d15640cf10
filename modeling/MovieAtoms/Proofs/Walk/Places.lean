import MovieAtoms.Proofs.Walk.Onward
import MovieAtoms.Proofs.Walk.Quiet

/-!
# Where the atoms stand

The events of a walk tell where it found its atoms: each event that tells of an atom counts from
where the walk went on after the one before, and the first of them counts from the end of the file
type. Main statement: `tells_run`, by which the header that an event tells of stands in the source
at just that place.
-/

namespace MovieAtoms

namespace Event

/-- The header of the atom that the event tells of. -/
def header? : Event → Option Header
  | .skippingSibling header _ => some header
  | .executing _ directive size => some ⟨size, directive.tag⟩
  | _ => none

/-- The bytes from the front of the atom that the event tells of to where the walk goes on. -/
def extent : Event → Nat
  | .skippingSibling header _ => header.size.toNat
  | .executing _ ⟨.stepInto, _⟩ _ => Header.width
  | .executing _ _ size => size.toNat
  | _ => 0

variable {event : Event}

theorem header?_of_quiet (h : event.Quiet) : event.header? = none := by
  cases event with
  | skippingSibling => cases h
  | executing => cases h
  | _ => rfl

theorem extent_of_quiet (h : event.Quiet) : event.extent = 0 := by
  cases event with
  | skippingSibling => cases h
  | executing => cases h
  | _ => rfl

end Event

namespace Walk

/-- How far the events tell that a walk went. -/
def extents : List Event → Nat
  | [] => 0
  | event :: others => event.extent + extents others

/-- Each event that tells of an atom counts from the header of that atom. -/
def Tells : List Event → Bytes → Prop
  | [], _ => True
  | event :: others, bytes =>
      (∀ header, event.header? = some header → ∃ tail, bytes = header.toBytes ++ tail) ∧
        Tells others (bytes.drop event.extent)

variable {tag : Tag} {ending : Ending} {header : Header} {bytes middle behind left : Bytes}
  {first second acts : List Event} {index : Nat}

theorem tells_append :
    Tells (first ++ second) bytes ↔
      Tells first bytes ∧ Tells second (bytes.drop (extents first)) := by
  induction first generalizing bytes with
  | nil => exact ⟨fun h => ⟨trivial, h⟩, fun h => h.2⟩
  | cons event others ih =>
      rw [List.cons_append, Tells, Tells, ih, List.drop_drop, and_assoc, extents]

theorem extents_append : extents (first ++ second) = extents first + extents second := by
  induction first with
  | nil => exact (Nat.zero_add _).symm
  | cons event others ih => rw [List.cons_append, extents, extents, ih, Nat.add_assoc]

theorem extents_of_quiet (h : ∀ event ∈ acts, event.Quiet) : extents acts = 0 := by
  induction acts with
  | nil => rfl
  | cons act acts ih =>
      obtain ⟨hact, hacts⟩ := List.forall_mem_cons.mp h
      rw [extents, Event.extent_of_quiet hact, ih hacts]

theorem tells_of_quiet (h : ∀ event ∈ acts, event.Quiet) : Tells acts bytes := by
  induction acts generalizing bytes with
  | nil => trivial
  | cons act acts ih =>
      obtain ⟨hact, hacts⟩ := List.forall_mem_cons.mp h
      refine ⟨fun header hheader => ?_, ih hacts⟩
      rw [Event.header?_of_quiet hact] at hheader
      cases hheader

/-! ### Searches and directives -/

theorem drop_size {payload tail : Bytes} (hsize : Header.width ≤ header.size.toNat)
    (hpayload : payload.length = header.payloadLength) :
    (header.toBytes ++ (payload ++ tail)).drop header.size.toNat = tail := by
  rw [← List.append_assoc, ← Header.length_toBytes_append hsize hpayload, List.drop_left]

theorem tells_search {log : Logged Header} (h : Search tag ending bytes log left) :
    Tells log.events bytes ∧ ∀ header, log.result = .ok header →
      bytes.drop (extents log.events) = header.toBytes ++ left := by
  induction h with
  | exhausted => exact ⟨trivial, fun _ hok => by cases hok⟩
  | cutHeader => exact ⟨trivial, fun _ hok => by cases hok⟩
  | badSize => exact ⟨trivial, fun _ hok => by cases hok⟩
  | @found header tail =>
      refine ⟨trivial, fun other hok => ?_⟩
      cases hok
      rfl
  | @cutPayload header payload =>
      refine ⟨⟨fun other hother => ?_, trivial⟩, fun _ hok => by cases hok⟩
      cases hother
      exact ⟨payload, rfl⟩
  | @hop header payload tail left log hsize htag hpayload _ ih =>
      have hdrop : (header.toBytes ++ (payload ++ tail)).drop header.size.toNat = tail :=
        drop_size hsize hpayload
      refine ⟨⟨fun other hother => ?_, ?_⟩, fun other hok => ?_⟩
      · cases hother
        exact ⟨payload ++ tail, rfl⟩
      · rw [Event.extent, hdrop]
        exact ih.1
      · rw [extents, ← List.drop_drop, Event.extent, hdrop]
        exact ih.2 other hok

/-- What is done with an atom ends where its event says that the walk goes on. -/
theorem drop_extent {operation : Operation} {found : Option Atom}
    (hsize : Header.width ≤ header.size.toNat)
    (h : (carryOut operation header).Yields middle ending ⟨acts, .ok found⟩ behind) (tag : Tag) :
    (header.toBytes ++ middle).drop (Event.executing index ⟨operation, tag⟩ header.size).extent =
      behind := by
  cases operation with
  | stepInto =>
      obtain ⟨-, rfl⟩ := stepInto_ok h
      rfl
  | skip =>
      obtain ⟨-, payload, rfl, hpayload⟩ := skip_ok h
      exact drop_size hsize hpayload
  | read =>
      obtain ⟨record, payload, -, rfl, hpayload, -⟩ := read_ok h
      exact drop_size hsize hpayload

theorem tells_carryOutAll {directives : List Directive} {log : Logged (List Atom)}
    (h : (carryOutAll index directives).Yields bytes ending log left) :
    Tells log.events bytes := by
  induction directives generalizing index bytes log with
  | nil =>
      obtain ⟨rfl, -⟩ := h.unique yields_carryOutAll_nil
      trivial
  | cons directive others ih =>
      obtain ⟨operation, tag⟩ := directive
      rcases carryOutAll_cases h with ⟨events, error, hsearch, rfl⟩ |
        ⟨events, header, middle, acts, hsearch, hact⟩
      · exact (tells_search hsearch).1
      · obtain ⟨hevents, hdrop⟩ := tells_search hsearch
        obtain ⟨rfl, hsize⟩ := search_ok hsearch
        have hheader : ∀ other,
            (Event.executing index ⟨operation, header.tag⟩ header.size).header? = some other →
              ∃ tail, header.toBytes ++ middle = other.toBytes ++ tail := by
          intro other hother
          cases hother
          exact ⟨middle, rfl⟩
        rcases hact with ⟨error, hact, rfl⟩ | ⟨found, behind, rest, hact, hrest, rfl⟩
        · refine tells_append.mpr ⟨hevents, ?_⟩
          rw [hdrop header rfl]
          exact ⟨hheader, tells_of_quiet (hact.quiet (quiet_carryOut operation header))⟩
        · have hquiet := hact.quiet (quiet_carryOut operation header)
          refine tells_append.mpr ⟨hevents, ?_⟩
          rw [hdrop header rfl]
          refine ⟨hheader, ?_⟩
          rw [drop_extent hsize hact header.tag]
          refine tells_append.mpr ⟨tells_of_quiet hquiet, ?_⟩
          rw [extents_of_quiet hquiet, List.drop_zero]
          exact ih hrest

/-- The header that an event of a walk tells of stands where that event counts from. -/
theorem tells_run (directives : List Directive) (source : Source) :
    Tells (run directives source).1.events (source.rest.drop (leadingFileType.taken source)) := by
  obtain ⟨⟨events, result⟩, used, tail, hsplit, hleading⟩ :=
    onward_leadingFileType.exists_yields source.rest source.ending
  have hquiet := hleading.quiet quiet_leadingFileType
  cases result with
  | error error =>
      have hrun : (run directives).Yields source.rest source.ending ⟨events, .error error⟩ tail :=
        hleading.bind_error
      rw [(hrun.eq rfl rfl).1]
      exact tells_of_quiet hquiet
  | ok fileType =>
      obtain ⟨log, more, left, rfl, hatoms⟩ :=
        (onward_carryOutAll 0 directives).exists_yields tail source.ending
      have hrun := yields_run hleading hatoms
      rw [(hrun.eq rfl rfl).1, ← onward_leadingFileType.rest_eq_drop, (hleading.eq rfl rfl).2]
      refine tells_append.mpr ⟨tells_of_quiet hquiet, ?_⟩
      rw [extents_of_quiet hquiet, List.drop_zero]
      exact tells_carryOutAll hatoms

end Walk

end MovieAtoms
