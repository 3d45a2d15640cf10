import MovieAtoms.Proofs.SampleTable.Entries
import MovieAtoms.Proofs.Walk.Places
import MovieAtoms.Proofs.Walk.Success

/-!
# The records that walks bring home

A payload is decoded as the tag in front of it asks for, so a record fits its tag, and it says what
was written (`Atom.ofPayload_result_eq_ok`). A successful walk brings home one such record for each
directive to read, in the order of the directives, and their atoms stand in the source in the same
order, none inside another. Main statement: `holds_of_run_ok`.
-/

namespace MovieAtoms

namespace Atom

/-- The kind of a record is the one that its tag asks for. -/
def KindFits : Atom → Prop
  | .raw atom => atom.header.tag ≠ Tag.movieHeader ∧ atom.header.tag ≠ Tag.sampleTable
  | .movieHeader movie => movie.header.tag = Tag.movieHeader
  | .sampleTable table => table.header.tag = Tag.sampleTable

/-- The payloads that a record may stand for. What follows the last field of a movie header may be
    anything. -/
def WrittenAs : Atom → Bytes → Prop
  | .raw atom, payload => atom.payload = payload
  | .movieHeader movie, payload => ∃ unread, payload = movie.payload ++ unread
  | .sampleTable table, payload => table.WrittenAs payload

variable {header : Header} {payload : Bytes} {atom : Atom}

theorem ofPayload_result_eq_ok :
    (ofPayload header payload).result = .ok atom ↔
      atom.header = header ∧ atom.KindFits ∧ atom.WrittenAs payload := by
  constructor
  · intro h
    rw [ofPayload] at h
    split at h
    · rename_i hmovie
      obtain ⟨movie, hdecode, rfl⟩ := DecodeError.map_eq_ok.mp h
      obtain ⟨rfl, hwritten⟩ := MovieHeader.decode_eq_ok.mp hdecode
      exact ⟨rfl, hmovie, hwritten⟩
    · rename_i hmovie
      split at h
      · rename_i htable
        obtain ⟨table, hdecode, hatom⟩ := Logged.bind_result_eq_ok.mp h
        cases hatom
        obtain ⟨rfl, hwritten⟩ := SampleTable.decode_result_eq_ok.mp hdecode
        exact ⟨rfl, htable, hwritten⟩
      · rename_i htable
        cases h
        exact ⟨rfl, ⟨hmovie, htable⟩, rfl⟩
  · rintro ⟨rfl, hkind, hwritten⟩
    cases atom with
    | raw record =>
        cases hwritten
        rw [ofPayload, Atom.header, if_neg hkind.1, if_neg hkind.2]
        rfl
    | movieHeader movie =>
        have hmovie : movie.header.tag = Tag.movieHeader := hkind
        have hdecode := MovieHeader.decode_eq_ok.mpr ⟨rfl, hwritten⟩
        rw [ofPayload, Atom.header, if_pos hmovie]
        exact DecodeError.map_eq_ok.mpr ⟨movie, hdecode, rfl⟩
    | sampleTable table =>
        have htable : table.header.tag = Tag.sampleTable := hkind
        have hmovie : table.header.tag ≠ Tag.movieHeader := by
          rw [htable]
          decide
        have hdecode := SampleTable.decode_result_eq_ok.mpr ⟨rfl, hwritten⟩
        rw [ofPayload, Atom.header, if_neg hmovie, if_pos htable]
        exact Logged.bind_result_eq_ok.mpr ⟨table, hdecode, rfl⟩

/-- Only atoms that are taken apart can be refused. -/
theorem tag_of_ofPayload_result_eq_error {error : DecodeError}
    (h : (ofPayload header payload).result = .error error) :
    header.tag = Tag.movieHeader ∨ header.tag = Tag.sampleTable := by
  rw [ofPayload] at h
  split at h
  · exact Or.inl ‹_›
  · split at h
    · exact Or.inr ‹_›
    · cases h

end Atom

namespace Walk

def readTags (directives : List Directive) : List Tag :=
  (directives.filter fun directive => directive.operation = .read).map Directive.tag

/-- The data hold atoms of these records in order, each behind the one before it. -/
inductive Holds : Bytes → List Atom → Prop where
  | nil {bytes : Bytes} : Holds bytes []
  | cons {front payload tail : Bytes} {atom : Atom} {others : List Atom}
      (hsize : Header.width + payload.length = atom.size.toNat)
      (hdecode : (Atom.ofPayload atom.header payload).result = .ok atom)
      (hothers : Holds tail others) :
      Holds (front ++ (atom.header.toBytes ++ (payload ++ tail))) (atom :: others)

variable {bytes left : Bytes} {ending : Ending} {events : List Event} {tag : Tag}
  {header : Header} {directives : List Directive} {atoms : List Atom}

theorem Holds.append_left (h : Holds bytes atoms) (front : Bytes) :
    Holds (front ++ bytes) atoms := by
  cases h with
  | nil => exact .nil
  | @cons inner _ _ _ _ hsize hdecode hothers =>
      rw [← List.append_assoc]
      exact .cons hsize hdecode hothers

theorem Holds.exists_of_mem (h : Holds bytes atoms) {atom : Atom} (hatom : atom ∈ atoms) :
    ∃ front payload tail, bytes = front ++ (atom.header.toBytes ++ (payload ++ tail)) ∧
      Header.width + payload.length = atom.size.toNat ∧
      (Atom.ofPayload atom.header payload).result = .ok atom := by
  induction h with
  | nil => cases hatom
  | @cons front payload tail first _ hsize hdecode _ ih =>
      rcases List.mem_cons.mp hatom with rfl | hatom
      · exact ⟨front, payload, tail, rfl, hsize, hdecode⟩
      · obtain ⟨inner, payload', tail', rfl, hfound⟩ := ih hatom
        refine ⟨front ++ (first.header.toBytes ++ (payload ++ inner)), payload', tail', ?_, hfound⟩
        simp only [List.append_assoc]

theorem exists_of_search_ok (h : Search tag ending bytes ⟨events, .ok header⟩ left) :
    ∃ front, bytes = front ++ (header.toBytes ++ left) := by
  refine ⟨bytes.take (extents events), ?_⟩
  rw [← (tells_search h).2 header rfl, List.take_append_drop]

theorem Succeeds.holds (h : Succeeds ending directives bytes atoms left) : Holds bytes atoms := by
  induction h with
  | nil => exact .nil
  | stepInto hsearch _ ih =>
      -- only the header is behind the walk, so an atom inside may still come home
      obtain ⟨front, rfl⟩ := exists_of_search_ok hsearch
      exact (ih.append_left _).append_left front
  | skip hsearch _ _ ih =>
      obtain ⟨front, rfl⟩ := exists_of_search_ok hsearch
      exact ((ih.append_left _).append_left _).append_left front
  | read hsearch hpayload hdecode _ ih =>
      obtain ⟨front, rfl⟩ := exists_of_search_ok hsearch
      obtain ⟨-, hcovers⟩ := search_ok hsearch
      obtain ⟨rfl, -⟩ := Atom.ofPayload_result_eq_ok.mp hdecode
      refine .cons ?_ hdecode ih
      rw [hpayload, Header.payloadLength]
      exact Nat.add_sub_cancel' hcovers

theorem Succeeds.tags_eq (h : Succeeds ending directives bytes atoms left) :
    atoms.map Atom.tag = readTags directives := by
  induction h with
  | nil => rfl
  | stepInto _ _ ih => exact ih
  | skip _ _ _ ih => exact ih
  | @read _ others _ _ _ _ _ header atom _ hsearch _ hdecode _ ih =>
      obtain ⟨rfl, -⟩ := search_ok hsearch
      obtain ⟨rfl, -⟩ := Atom.ofPayload_result_eq_ok.mp hdecode
      exact congrArg (atom.header.tag :: ·) ih

/-- A successful walk brings home the file type at the front of the source and, for each directive
    to read, the record of an atom behind it. -/
theorem holds_of_run_ok {source : Source} {extraction : Extraction}
    (h : (run directives source).1.result = .ok extraction) :
    ∃ behind, source.rest = extraction.fileType.toBytes ++ behind ∧
      extraction.fileType.WellFormed ∧ Holds behind extraction.atoms ∧
      extraction.atoms.map Atom.tag = readTags directives := by
  obtain ⟨events, middle, hleading, hatoms⟩ := exists_of_run_ok h
  obtain ⟨hwell, hrest⟩ := leadingFileType_ok hleading
  exact ⟨middle, hrest, hwell, hatoms.holds, hatoms.tags_eq⟩

end Walk

end MovieAtoms
