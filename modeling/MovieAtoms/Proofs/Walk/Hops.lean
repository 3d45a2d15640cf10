import Mathlib.Logic.Relation
import MovieAtoms.Proofs.Walk.Search

/-!
# Where the hops of a search lead

A search hops from atom to atom by their sizes. `Hop` is one such step between two offsets into the
data. `Stop` lists the reasons to hop no further, each with what the search comes to and how many
bytes are consumed by then. Neither mentions the search. Main statement: `findSibling_stop`, by which
the hops from the start of the data lead to exactly one stop, whatever the data are, and the search
ends as this stop says.
-/

namespace MovieAtoms

/-- The data hold the header at an offset. -/
def Header.At (header : Header) (bytes : Bytes) (offset : Nat) : Prop :=
  ∃ tail, bytes.drop offset = header.toBytes ++ tail

namespace Walk

/-- A hop over a whole atom of another tag, from its offset to the one behind it. -/
def Hop (tag : Tag) (bytes : Bytes) (offset next : Nat) : Prop :=
  ∃ header : Header, header.At bytes offset ∧ header.tag ≠ tag ∧
    Header.width ≤ header.size.toNat ∧ next = offset + header.size.toNat ∧ next ≤ bytes.length

/-- Any number of hops from one offset to another. -/
abbrev Hops (tag : Tag) (bytes : Bytes) : Nat → Nat → Prop := Relation.ReflTransGen (Hop tag bytes)

/-- Why a search hops no further from an offset: what it comes to, and how many bytes are consumed
    by then. -/
inductive Stop (tag : Tag) (bytes : Bytes) (offset : Nat) : Except DecodeError Header → Nat → Prop where
  | found {header : Header} (hheader : header.At bytes offset)
      (hsize : Header.width ≤ header.size.toNat) (htag : header.tag = tag) :
      Stop tag bytes offset (.ok header) (offset + Header.width)
  | exhausted (hend : offset = bytes.length) :
      Stop tag bytes offset (.error (.targetNotFound tag)) bytes.length
  | cutHeader (hsome : offset < bytes.length) (hcut : bytes.length < offset + Header.width) :
      Stop tag bytes offset (.error .prematureEnd) bytes.length
  | badSize {header : Header} (hheader : header.At bytes offset)
      (hsize : header.size.toNat < Header.width) :
      Stop tag bytes offset (.error (.invalidSize header.tag header.size.toNat))
        (offset + Header.width)
  | cutPayload {header : Header} (hheader : header.At bytes offset)
      (hsize : Header.width ≤ header.size.toNat) (htag : header.tag ≠ tag)
      (hcut : bytes.length < offset + header.size.toNat) :
      Stop tag bytes offset (.error (.shortSkip (header.size.toNat - Header.width)
        (bytes.length - (offset + Header.width)))) bytes.length

end Walk

/-! ### Headers at offsets -/

namespace Header.At

variable {header header' : Header} {bytes : Bytes} {offset : Nat}

theorem length_le (h : header.At bytes offset) : offset + width ≤ bytes.length := by
  obtain ⟨tail, htail⟩ := h
  have hlength := congrArg List.length htail
  rw [List.length_drop, List.length_append, length_toBytes] at hlength
  simp only [width] at hlength ⊢
  omega

theorem unique (h : header.At bytes offset) (h' : header'.At bytes offset) : header = header' := by
  obtain ⟨tail, htail⟩ := h
  obtain ⟨tail', htail'⟩ := h'
  have hfield := field_eq_some.mpr htail
  rw [field_eq_some.mpr htail'] at hfield
  cases hfield
  rfl

/-- The bytes at an offset are the header and what stands behind it. -/
theorem drop_eq (h : header.At bytes offset) :
    bytes.drop offset = header.toBytes ++ bytes.drop (offset + width) := by
  obtain ⟨tail, htail⟩ := h
  rw [htail, ← List.drop_drop, htail, ← length_toBytes header, List.drop_left]

/-- A whole atom is its header and payload, and the offset behind it comes after both. -/
theorem exists_payload (h : header.At bytes offset) (hsize : width ≤ header.size.toNat)
    (hinside : offset + header.size.toNat ≤ bytes.length) :
    ∃ payload, payload.length = header.payloadLength ∧
      bytes.drop offset =
        header.toBytes ++ (payload ++ bytes.drop (offset + header.size.toNat)) := by
  let behind := bytes.drop (offset + width)
  have hpayload : (behind.take header.payloadLength).length = header.payloadLength := by
    rw [List.length_take, List.length_drop, payloadLength]
    omega
  have hnext : bytes.drop (offset + header.size.toNat) = behind.drop header.payloadLength := by
    rw [List.drop_drop, payloadLength, Nat.add_assoc, Nat.add_sub_cancel' hsize]
  refine ⟨behind.take header.payloadLength, hpayload, ?_⟩
  rw [hnext, List.take_append_drop]
  exact h.drop_eq

end Header.At

namespace Walk

variable {tag : Tag} {bytes : Bytes} {offset next : Nat}

/-! ### Hops and stops exclude each other -/

theorem hop_unique (tag : Tag) (bytes : Bytes) : Relator.RightUnique (Hop tag bytes) := by
  rintro offset _ _ ⟨header, hheader, -, -, rfl, -⟩ ⟨header', hheader', -, -, rfl, -⟩
  rw [hheader.unique hheader']

theorem Stop.not_hop {result : Except DecodeError Header} {consumed : Nat}
    (h : Stop tag bytes offset result consumed) : ¬Hop tag bytes offset next := by
  rintro ⟨header, hheader, htag, hsize, rfl, hinside⟩
  have hlength := hheader.length_le
  cases h with
  | found hfound _ hwanted =>
      rw [hfound.unique hheader] at hwanted
      exact htag hwanted
  | exhausted hend =>
      rw [hend, Header.width] at hlength
      omega
  | cutHeader _ hcut => exact Nat.not_le.mpr hcut hlength
  | badSize hbad hsmall =>
      rw [hbad.unique hheader] at hsmall
      exact Nat.not_le.mpr hsmall hsize
  | cutPayload hlong _ _ hcut =>
      rw [hlong.unique hheader] at hcut
      exact Nat.not_le.mpr hcut hinside

/-- Hops from one offset lead to one stop only, since nothing is hopped over at a stop. -/
theorem Stop.offset_unique {result result' : Except DecodeError Header}
    {start stop stop' consumed consumed' : Nat} (hhops : Hops tag bytes start stop)
    (hhops' : Hops tag bytes start stop') (h : Stop tag bytes stop result consumed)
    (h' : Stop tag bytes stop' result' consumed') : stop = stop' := by
  rcases Relation.ReflTransGen.total_of_right_unique (hop_unique tag bytes) hhops hhops'
    with hon | hon
  · rcases hon.cases_head with rfl | ⟨next, hhop, -⟩
    · rfl
    · exact absurd hhop h.not_hop
  · rcases hon.cases_head with rfl | ⟨next, hhop, -⟩
    · rfl
    · exact absurd hhop h'.not_hop

/-! ### Stops and the rules of the search -/

theorem Stop.consumed_le {result : Except DecodeError Header} {consumed : Nat}
    (h : Stop tag bytes offset result consumed) : consumed ≤ bytes.length := by
  cases h with
  | found hheader => exact hheader.length_le
  | badSize hheader => exact hheader.length_le
  | exhausted | cutHeader | cutPayload => exact Nat.le_refl _

/-- From a stop the search comes to what the stop says. -/
theorem Stop.search {result : Except DecodeError Header} {consumed : Nat}
    (h : Stop tag bytes offset result consumed) :
    ∃ events, Search tag .endOfInput (bytes.drop offset) ⟨events, result⟩
      (bytes.drop consumed) := by
  have hnothing : bytes.drop bytes.length = [] := List.drop_length
  cases h with
  | found hheader hsize htag =>
      rw [hheader.drop_eq]
      exact ⟨[], .found hsize htag⟩
  | exhausted hend =>
      rw [hend, hnothing]
      exact ⟨[], .exhausted⟩
  | cutHeader hsome hcut =>
      have hlength : (bytes.drop offset).length < Header.width := by
        rw [List.length_drop]
        omega
      have hleft : bytes.drop offset ≠ [] := by
        intro hnil
        exact Nat.not_le.mpr hsome (List.drop_eq_nil_iff.mp hnil)
      rw [hnothing]
      exact ⟨[], .cutHeader hleft hlength⟩
  | badSize hheader hsize =>
      rw [hheader.drop_eq]
      exact ⟨[], .badSize hsize⟩
  | @cutPayload header hheader hsize htag hcut =>
      have hlength := hheader.length_le
      have hpayload : (bytes.drop (offset + Header.width)).length < header.payloadLength := by
        rw [List.length_drop, Header.payloadLength]
        omega
      have hsearch : Search tag .endOfInput _ _ _ := .cutPayload hsize htag hpayload
      rw [← hheader.drop_eq, List.length_drop] at hsearch
      rw [hnothing]
      exact ⟨_, hsearch⟩

/-- A search that starts at an offset stops where the hops from there lead. -/
theorem exists_stop_of_search {log : Logged Header} {rest left : Bytes}
    (h : Search tag .endOfInput rest log left) (hrest : bytes.drop offset = rest)
    (hinside : offset ≤ bytes.length) :
    ∃ stop consumed, Hops tag bytes offset stop ∧ Stop tag bytes stop log.result consumed ∧
      left = bytes.drop consumed := by
  induction h generalizing offset with
  | exhausted =>
      have hend : offset = bytes.length := by
        have := List.drop_eq_nil_iff.mp hrest
        omega
      exact ⟨offset, _, .refl, .exhausted hend, by simp⟩
  | cutHeader hsome hcut =>
      rw [← hrest, List.length_drop] at hcut
      rw [← hrest, Ne, List.drop_eq_nil_iff] at hsome
      exact ⟨offset, _, .refl, .cutHeader (by omega) (by omega), by simp⟩
  | @badSize header tail hsize =>
      have hheader : header.At bytes offset := ⟨tail, hrest⟩
      refine ⟨offset, _, .refl, .badSize hheader hsize, ?_⟩
      exact List.append_cancel_left (hrest.symm.trans hheader.drop_eq)
  | @found header tail hsize htag =>
      have hheader : header.At bytes offset := ⟨tail, hrest⟩
      refine ⟨offset, _, .refl, .found hheader hsize htag, ?_⟩
      exact List.append_cancel_left (hrest.symm.trans hheader.drop_eq)
  | @cutPayload header payload hsize htag hcut =>
      have hheader : header.At bytes offset := ⟨payload, hrest⟩
      have hpayload := List.append_cancel_left (hrest.symm.trans hheader.drop_eq)
      have hlength := congrArg List.length hpayload
      rw [List.length_drop] at hlength
      have hbeyond : bytes.length < offset + header.size.toNat := by
        rw [Header.payloadLength] at hcut
        omega
      have hstop := Stop.cutPayload hheader hsize htag hbeyond
      rw [← hlength] at hstop
      exact ⟨offset, _, .refl, hstop, by simp⟩
  | @hop header payload tail left log hsize htag hpayload _ ih =>
      -- the bytes behind the atom are those at the next offset, where the hops go on
      have hheader : header.At bytes offset := ⟨payload ++ tail, hrest⟩
      have hatom := Header.length_toBytes_append hsize hpayload
      rw [← List.append_assoc] at hrest
      have htail : bytes.drop (offset + header.size.toNat) = tail := by
        rw [← List.drop_drop, hrest, ← hatom, List.drop_left]
      have hnext : offset + header.size.toNat ≤ bytes.length := by
        have hlength := congrArg List.length hrest
        rw [List.length_drop, List.length_append, hatom] at hlength
        omega
      obtain ⟨stop, consumed, hhops, hstop, hleft⟩ := ih htail hnext
      exact ⟨stop, consumed, .head ⟨header, hheader, htag, hsize, rfl, hnext⟩ hhops, hstop, hleft⟩

/-- Hops do not change what a search comes to. -/
theorem search_of_hops {result : Except DecodeError Header} {events : List Event} {left : Bytes}
    (h : Hops tag bytes offset next)
    (hsearch : Search tag .endOfInput (bytes.drop next) ⟨events, result⟩ left) :
    ∃ events, Search tag .endOfInput (bytes.drop offset) ⟨events, result⟩ left := by
  induction h using Relation.ReflTransGen.head_induction_on with
  | refl => exact ⟨events, hsearch⟩
  | @head offset _ hhop _ ih =>
      obtain ⟨header, hheader, htag, hsize, rfl, hinside⟩ := hhop
      obtain ⟨events, hbehind⟩ := ih
      obtain ⟨payload, hpayload, hbytes⟩ := hheader.exists_payload hsize hinside
      rw [hbytes]
      exact ⟨_, .hop hsize htag hpayload hbehind⟩

theorem search_unique {log log' : Logged Header} {ending : Ending} {left left' : Bytes}
    (h : Search tag ending bytes log left) (h' : Search tag ending bytes log' left') :
    log = log' ∧ left = left' :=
  (yields_of_search h).unique (yields_of_search h')

/-- The hops from the start of the data lead to exactly one stop, and it decides what the search
    comes to and where it leaves the source. -/
theorem findSibling_stop (tag : Tag) {source : Source} (hending : source.ending = .endOfInput) :
    ∃ stop result consumed,
      (∀ stop' result' consumed',
        Hops tag source.rest 0 stop' ∧ Stop tag source.rest stop' result' consumed' ↔
          stop' = stop ∧ result' = result ∧ consumed' = consumed) ∧
      (findSibling tag source).1.result = result ∧
      (findSibling tag source).2.rest = source.rest.drop consumed ∧
      consumed ≤ source.rest.length := by
  obtain ⟨log, left, hsearch⟩ := exists_search tag .endOfInput source.rest
  obtain ⟨hlog, hleft⟩ := (yields_of_search hsearch).eq rfl hending
  obtain ⟨stop, consumed, hhops, hstop, hconsumed⟩ :=
    exists_stop_of_search hsearch List.drop_zero (Nat.zero_le _)
  refine ⟨stop, log.result, consumed, ?_, congrArg Logged.result hlog, hleft.trans hconsumed,
    hstop.consumed_le⟩
  intro stop' result' consumed'
  constructor
  · rintro ⟨hhops', hstop'⟩
    -- one offset has several stops only if the search from there comes to several results
    obtain rfl := Stop.offset_unique hhops' hhops hstop' hstop
    obtain ⟨events, hother⟩ := hstop'.search
    obtain ⟨events', hwhole⟩ := search_of_hops hhops' hother
    obtain ⟨rfl, hsame⟩ := search_unique hwhole hsearch
    have hlength := congrArg List.length (hsame.trans hconsumed)
    rw [List.length_drop, List.length_drop] at hlength
    have hle := hstop.consumed_le
    have hle' := hstop'.consumed_le
    exact ⟨rfl, rfl, by omega⟩
  · rintro ⟨rfl, rfl, rfl⟩
    exact ⟨hhops, hstop⟩

/-- Two whole atoms in front of one that is cut off. -/
def cutMovie : Bytes :=
  (Header.mk 9 (Tag.spelled 'f' 'r' 'e' 'e')).toBytes ++ (7 ::
    ((Header.mk 8 (Tag.spelled 'w' 'i' 'd' 'e')).toBytes ++
      ((Header.mk 12 (Tag.spelled 'm' 'd' 'a' 't')).toBytes ++ [1, 2])))

theorem findSibling_stop_cutMovie :
    let source := Source.paced cutMovie .endOfInput fun index => ⟨index % 2, index % 3⟩
    source.ending = .endOfInput ∧
      (findSibling Tag.movieHeader source).1.result = .error (.shortSkip 4 2) ∧
      (findSibling Tag.movieHeader source).2.rest = [] := by
  intro source
  have hfirst : Hop Tag.movieHeader cutMovie 0 9 :=
    ⟨⟨9, Tag.spelled 'f' 'r' 'e' 'e'⟩, ⟨_, rfl⟩, by decide, by decide, rfl, by decide⟩
  have hsecond : Hop Tag.movieHeader cutMovie 9 17 :=
    ⟨⟨8, Tag.spelled 'w' 'i' 'd' 'e'⟩, ⟨_, rfl⟩, by decide, by decide, rfl, by decide⟩
  have hhops : Hops Tag.movieHeader cutMovie 0 17 := .head hfirst (.head hsecond .refl)
  have hlast : (Header.mk 12 (Tag.spelled 'm' 'd' 'a' 't')).At cutMovie 17 := ⟨_, rfl⟩
  have hstop : Stop Tag.movieHeader cutMovie 17 (.error (.shortSkip 4 2)) 27 :=
    .cutPayload hlast (by decide) (by decide) (by decide)
  have hending : source.ending = .endOfInput := rfl
  obtain ⟨stop, result, consumed, honly, hresult, hrest, -⟩ :=
    findSibling_stop Tag.movieHeader hending
  obtain ⟨rfl, rfl, rfl⟩ := (honly 17 (.error (.shortSkip 4 2)) 27).mp ⟨hhops, hstop⟩
  exact ⟨hending, hresult, hrest⟩

end Walk

end MovieAtoms
