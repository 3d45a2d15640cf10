import MovieAtoms.Proofs.Walk.Yields

/-!
# The search for a tag

`Search` gives the rules of the search among the atoms at the front of the data: one rule for each
way in which it ends, and one for an atom that is passed over. Main statement: `yields_iff_search`,
by which the search comes to exactly what the rules derive. Every contents have a derivation, and
its shape does not depend on what follows the bytes that were taken (`search_cases`).
-/

namespace MovieAtoms

/-- What it means for a search that no atom is left. -/
def Ending.searchError (tag : Tag) : Ending → DecodeError
  | .endOfInput => .targetNotFound tag
  | .fault cause => cause.error

theorem Ending.explains_searchError (ending : Ending) (tag : Tag) :
    ending.Explains (ending.searchError tag) := by
  cases ending with
  | endOfInput => exact Or.inr (Or.inl ⟨tag, rfl⟩)
  | fault cause => rfl

namespace Walk

/-- The rules of a search: the data it starts on, its log, and the data it leaves. -/
inductive Search (tag : Tag) (ending : Ending) : Bytes → Logged Header → Bytes → Prop where
  | exhausted : Search tag ending [] (Logged.fail (ending.searchError tag)) []
  | cutHeader {bytes : Bytes} (hsome : bytes ≠ []) (hcut : bytes.length < Header.width) :
      Search tag ending bytes (Logged.fail ending.error) []
  | badSize {header : Header} {tail : Bytes} (hsize : header.size.toNat < Header.width) :
      Search tag ending (header.toBytes ++ tail)
        (Logged.fail (.invalidSize header.tag header.size.toNat)) tail
  | found {header : Header} {tail : Bytes} (hsize : Header.width ≤ header.size.toNat)
      (htag : header.tag = tag) : Search tag ending (header.toBytes ++ tail) (pure header) tail
  | cutPayload {header : Header} {payload : Bytes} (hsize : Header.width ≤ header.size.toNat)
      (htag : header.tag ≠ tag) (hcut : payload.length < header.payloadLength) :
      Search tag ending (header.toBytes ++ payload)
        ⟨[.skippingSibling header tag],
          .error (ending.skipError header.payloadLength payload.length)⟩ []
  | hop {header : Header} {payload tail left : Bytes} {log : Logged Header}
      (hsize : Header.width ≤ header.size.toNat) (htag : header.tag ≠ tag)
      (hpayload : payload.length = header.payloadLength) (hnext : Search tag ending tail log left) :
      Search tag ending (header.toBytes ++ (payload ++ tail))
        ⟨.skippingSibling header tag :: log.events, log.result⟩ left

variable {tag : Tag} {ending : Ending} {bytes left : Bytes} {log : Logged Header}

theorem yields_of_search (h : Search tag ending bytes log left) :
    Yields (findSibling tag) bytes ending log left := by
  induction h with
  | exhausted =>
      intro source hrest hending
      obtain ⟨next, hread, hnext, hstop⟩ :=
        Source.tryReadHeader_brings_boundary ending source hrest hending
      refine ⟨next, ?_, hnext, hstop⟩
      rw [findSibling, hread]
      cases ending <;> rfl
  | cutHeader hsome hcut =>
      intro source hrest hending
      obtain ⟨next, hread, hnext, hstop⟩ :=
        Source.tryReadHeader_brings_error hsome hcut ending source hrest hending
      exact ⟨next, by rw [findSibling, hread], hnext, hstop⟩
  | @badSize header tail hsize =>
      intro source hrest hending
      obtain ⟨next, hread, hnext, hstop⟩ :=
        Source.tryReadHeader_brings_checked header tail ending source hrest hending
      rw [Header.checked_eq_error hsize] at hread
      exact ⟨next, by rw [findSibling, hread]; rfl, hnext, hstop⟩
  | @found header tail hsize htag =>
      intro source hrest hending
      obtain ⟨next, hread, hnext, hstop⟩ :=
        Source.tryReadHeader_brings_checked header tail ending source hrest hending
      rw [Header.checked_eq_ok hsize] at hread
      refine ⟨next, ?_, hnext, hstop⟩
      rw [findSibling, hread]
      exact if_pos htag
  | @cutPayload header payload hsize htag hcut =>
      intro source hrest hending
      obtain ⟨next, hread, hnext, hstop⟩ :=
        Source.tryReadHeader_brings_checked header payload ending source hrest hending
      rw [Header.checked_eq_ok hsize] at hread
      obtain ⟨last, hskip, hlast, hend⟩ :=
        Source.skip_brings_error hcut ending next hnext hstop
      refine ⟨last, ?_, hlast, hend⟩
      rw [findSibling, hread]
      simp only [Except.map, if_neg htag]
      rw [hskip]
  | @hop header payload tail left log hsize htag hpayload _ ih =>
      intro source hrest hending
      obtain ⟨next, hread, hnext, hstop⟩ :=
        Source.tryReadHeader_brings_checked header (payload ++ tail) ending source hrest hending
      rw [Header.checked_eq_ok hsize] at hread
      obtain ⟨middle, hskip, hmiddle, hgo⟩ :=
        Source.skip_brings_append hpayload ending next hnext hstop
      obtain ⟨last, hrun, hlast, hend⟩ := ih middle hmiddle hgo
      refine ⟨last, ?_, hlast, hend⟩
      rw [findSibling, hread]
      simp only [Except.map, if_neg htag]
      rw [hskip]
      simp only [hrun]

/-- A search either comes to its outcome on bytes after which anything may follow, or it takes all
    the data and meets the end of the source. -/
theorem search_cases (tag : Tag) (bytes : Bytes) :
    (∃ used tail log, bytes = used ++ tail ∧
      ∀ tail' ending, Search tag ending (used ++ tail') log tail') ∨
    ∀ ending : Ending, ∃ events error, ending.Explains error ∧
      Search tag ending bytes ⟨events, .error error⟩ [] := by
  induction hlength : bytes.length using Nat.strongRecOn generalizing bytes with
  | ind length ih =>
      by_cases hsome : bytes = []
      · subst hsome
        refine Or.inr fun ending => ⟨[], _, ending.explains_searchError tag, .exhausted⟩
      by_cases hcut : bytes.length < Header.width
      · exact Or.inr fun ending => ⟨[], _, ending.explains_error, .cutHeader hsome hcut⟩
      obtain ⟨header, rest, rfl⟩ := Header.exists_eq_toBytes_append (Nat.le_of_not_lt hcut)
      by_cases hsize : header.size.toNat < Header.width
      · exact Or.inl ⟨header.toBytes, rest, _, rfl, fun _ _ => .badSize hsize⟩
      have hcovers := Nat.le_of_not_lt hsize
      by_cases htag : header.tag = tag
      · exact Or.inl ⟨header.toBytes, rest, _, rfl, fun _ _ => .found hcovers htag⟩
      by_cases hshort : rest.length < header.payloadLength
      · exact Or.inr fun ending =>
          ⟨_, _, ending.explains_skipError _ _, .cutPayload hcovers htag hshort⟩
      -- the payload is whole, so the search goes on behind it, on shorter data
      obtain ⟨payload, behind, rfl, hpayload⟩ := exists_eq_payload_append hshort
      have hshorter : behind.length < length := by
        rw [← hlength, List.length_append, List.length_append, Header.length_toBytes, Header.width]
        omega
      rcases ih _ hshorter behind rfl with ⟨used, tail, log, rfl, hsearch⟩ | hstops
      · refine Or.inl ⟨header.toBytes ++ (payload ++ used), tail,
          ⟨.skippingSibling header tag :: log.events, log.result⟩, ?_, fun tail' ending => ?_⟩
        · simp only [List.append_assoc]
        · have hhop := Search.hop hcovers htag hpayload (hsearch tail' ending)
          simpa only [List.append_assoc] using hhop
      · refine Or.inr fun ending => ?_
        obtain ⟨events, error, hexplains, hsearch⟩ := hstops ending
        exact ⟨_, error, hexplains, .hop hcovers htag hpayload hsearch⟩

theorem exists_search (tag : Tag) (ending : Ending) (bytes : Bytes) :
    ∃ log left, Search tag ending bytes log left := by
  rcases search_cases tag bytes with ⟨used, tail, log, rfl, hsearch⟩ | hstops
  · exact ⟨log, tail, hsearch tail ending⟩
  · obtain ⟨events, error, -, hsearch⟩ := hstops ending
    exact ⟨_, [], hsearch⟩

theorem yields_iff_search :
    Yields (findSibling tag) bytes ending log left ↔ Search tag ending bytes log left := by
  constructor
  · intro h
    obtain ⟨log', left', hsearch⟩ := exists_search tag ending bytes
    obtain ⟨rfl, rfl⟩ := h.unique (yields_of_search hsearch)
    exact hsearch
  · exact yields_of_search

/-- What a search finds carries the tag and has a header's size at least. -/
theorem search_ok {events : List Event} {header : Header}
    (h : Search tag ending bytes ⟨events, .ok header⟩ left) :
    header.tag = tag ∧ Header.width ≤ header.size.toNat := by
  generalize hlog : (⟨events, .ok header⟩ : Logged Header) = log at h
  induction h generalizing events with
  | found hsize htag =>
      cases hlog
      exact ⟨htag, hsize⟩
  | @hop _ _ _ _ log _ _ _ _ ih =>
      obtain ⟨later, result⟩ := log
      cases hlog
      exact ih rfl
  | _ => cases hlog

end Walk

end MovieAtoms
