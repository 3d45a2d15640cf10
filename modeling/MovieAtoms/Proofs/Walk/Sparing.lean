import MovieAtoms.Proofs.Walk.Forest
import MovieAtoms.Proofs.Walk.Records

/-!
# Reading and skipping

To read an atom is to skip it and to decode what was skipped: both take exactly the payload that the
header announces. So a walk may skip what it does not want to read, and everything else comes home
as before. The converse holds up to decoding: where skipping succeeds, reading fails only when a
payload is refused, and only movie headers and sample tables ever are. Main statement:
`run_sparing`.

Both directions go by the rules of success: from a read that succeeded the rule for skipping
follows (`Succeeds.sparing`), and from a skip that succeeded the rule for reading, given that the
payload decodes (`succeedsOrRefuses_of_sparing`).
-/

namespace MovieAtoms.Walk

/-- The directives with every read that is not to be kept turned into a skip. The reads are numbered
    on from `count`. -/
def sparing (keep : Nat → Bool) : (count : Nat) → List Directive → List Directive
  | _, [] => []
  | count, ⟨.read, tag⟩ :: others =>
      ⟨if keep count then .read else .skip, tag⟩ :: sparing keep (count + 1) others
  | count, directive :: others => directive :: sparing keep count others

/-- The records of the reads that are kept. -/
def kept (keep : Nat → Bool) : (count : Nat) → List Atom → List Atom
  | _, [] => []
  | count, atom :: others =>
      if keep count then atom :: kept keep (count + 1) others else kept keep (count + 1) others

/-- The search for the tag finds an atom whose payload is refused with `error`; `left` stands behind
    that payload. -/
def Refuses (tag : Tag) (ending : Ending) (bytes : Bytes) (error : DecodeError) (left : Bytes) :
    Prop :=
  ∃ events header payload, Search tag ending bytes ⟨events, .ok header⟩ (payload ++ left) ∧
    payload.length = header.payloadLength ∧ (Atom.ofPayload header payload).result = .error error

variable {keep : Nat → Bool} {count : Nat} {tag : Tag} {directives : List Directive}
  {bytes middle left : Bytes} {ending : Ending} {atoms : List Atom} {error : DecodeError}

theorem Refuses.tag_eq (h : Refuses tag ending bytes error left) :
    tag = Tag.movieHeader ∨ tag = Tag.sampleTable := by
  obtain ⟨events, header, payload, hsearch, -, hdecode⟩ := h
  obtain ⟨rfl, -⟩ := search_ok hsearch
  exact Atom.tag_of_ofPayload_result_eq_error hdecode

theorem Refuses.inward (h : Refuses tag ending bytes error left) : error.Inward := by
  obtain ⟨events, header, payload, -, -, hdecode⟩ := h
  exact (Atom.inward_ofPayload header payload).error error hdecode

/-- What is read may be skipped instead, and the rest stays as it is. -/
theorem Succeeds.sparing (h : Succeeds ending directives bytes atoms left) :
    Succeeds ending (sparing keep count directives) bytes (kept keep count atoms) left := by
  induction h generalizing count with
  | nil => exact .nil
  | stepInto hsearch _ ih => exact .stepInto hsearch ih
  | skip hsearch hpayload _ ih => exact .skip hsearch hpayload ih
  | read hsearch hpayload hdecode _ ih =>
      rw [Walk.sparing, kept]
      by_cases hkeep : keep count
      · rw [if_pos hkeep, if_pos hkeep]
        exact .read hsearch hpayload hdecode ih
      · rw [if_neg hkeep, if_neg hkeep]
        exact .skip hsearch hpayload ih

/-- The directives succeed and leave `left`, or they come to a read that is refused. -/
def SucceedsOrRefuses (ending : Ending) (directives : List Directive) (bytes left : Bytes) : Prop :=
  (∃ atoms, Succeeds ending directives bytes atoms left) ∨
    ∃ before tag after atoms middle error tail, directives = before ++ ⟨.read, tag⟩ :: after ∧
      Succeeds ending before bytes atoms middle ∧ Refuses tag ending middle error tail

theorem SucceedsOrRefuses.append {first second : List Directive}
    (hfirst : Succeeds ending first bytes atoms middle)
    (hsecond : SucceedsOrRefuses ending second middle left) :
    SucceedsOrRefuses ending (first ++ second) bytes left := by
  rcases hsecond with ⟨more, hok⟩ | ⟨before, tag, after, more, last, error, tail, rfl, hbefore, h⟩
  · exact Or.inl ⟨_, hfirst.append hok⟩
  · exact Or.inr ⟨first ++ before, tag, after, _, last, error, tail,
      (List.append_assoc ..).symm, hfirst.append hbefore, h⟩

/-- What is skipped may be read instead, unless its payload is refused. -/
theorem succeedsOrRefuses_of_sparing
    (h : Succeeds ending (sparing (fun _ => false) count directives) bytes atoms left) :
    SucceedsOrRefuses ending directives bytes left := by
  induction directives generalizing count bytes atoms with
  | nil =>
      cases h
      exact Or.inl ⟨[], .nil⟩
  | cons directive others ih =>
      obtain ⟨operation, tag⟩ := directive
      cases operation with
      | stepInto =>
          cases h with
          | stepInto hsearch hothers => exact .append (.stepInto hsearch .nil) (ih hothers)
      | skip =>
          cases h with
          | skip hsearch hpayload hothers => exact .append (.skip hsearch hpayload .nil) (ih hothers)
      | read =>
          cases h with
          | @skip _ _ _ payload behind _ _ header _ hsearch hpayload hothers =>
              -- the payload that was skipped is whole, so only its decoding is in question
              rcases hdecode : (Atom.ofPayload header payload).result with error | record
              · have hrefuses : Refuses tag ending bytes error behind :=
                  ⟨_, header, payload, hsearch, hpayload, hdecode⟩
                exact Or.inr ⟨[], tag, others, [], bytes, error, behind, rfl, .nil, hrefuses⟩
              · exact .append (.read hsearch hpayload hdecode .nil) (ih hothers)

theorem Refuses.yields (h : Refuses tag ending bytes error left) (after : List Directive)
    (index : Nat) :
    ∃ events, (carryOutAll index (⟨.read, tag⟩ :: after)).Yields bytes ending
      ⟨events, .error error⟩ left := by
  obtain ⟨events, header, payload, hsearch, hpayload, hdecode⟩ := h
  rcases hlog : Atom.ofPayload header payload with ⟨told, result⟩
  rw [hlog] at hdecode
  cases hdecode
  exact ⟨_, yields_carryOutAll_act_error (yields_of_search hsearch)
    (yields_read_refused hpayload hlog)⟩

/-! ### Whole walks -/

variable {source : Source} {extraction : Extraction}

theorem run_sparing_ok (h : (run directives source).1.result = .ok extraction)
    (keep : Nat → Bool) :
    (run (sparing keep 0 directives) source).1.result =
        .ok ⟨extraction.fileType, kept keep 0 extraction.atoms⟩ ∧
      (run (sparing keep 0 directives) source).2.rest = (run directives source).2.rest := by
  obtain ⟨events, middle, hleading, hatoms⟩ := exists_of_run_ok h
  exact run_of_succeeds hleading hatoms.sparing

/-- Where skipping everything succeeds, reading fails at a payload that is refused. -/
theorem refuses_of_run_sparing
    (hspared : (run (sparing (fun _ => false) 0 directives) source).1.result = .ok extraction)
    (h : (run directives source).1.result = .error error) :
    ∃ before tag after, directives = before ++ ⟨.read, tag⟩ :: after ∧
      (∃ earlier, (run before source).1.result = .ok earlier) ∧
      Refuses tag source.ending (run before source).2.rest error
        (run directives source).2.rest := by
  obtain ⟨events, middle, hleading, hatoms⟩ := exists_of_run_ok hspared
  rcases succeedsOrRefuses_of_sparing hatoms with ⟨atoms, hok⟩ |
    ⟨before, tag, after, atoms, last, found, tail, rfl, hbefore, hrefuses⟩
  · rw [(run_of_succeeds hleading hok).1] at h
    cases h
  · obtain ⟨hearlier, hlast⟩ := run_of_succeeds hleading hbefore
    obtain ⟨later, hall⟩ := hbefore.yields_append (hrefuses.yields after) 0
    obtain ⟨hlog, hleft⟩ := (yields_run hleading hall).eq rfl rfl
    rw [hlog] at h
    cases h
    refine ⟨before, tag, after, rfl, ⟨_, hearlier⟩, ?_⟩
    rw [hlast, hleft]
    exact hrefuses

/-- Reads and skips advance alike. A walk that succeeds brings home one record for each directive to
    read, in order and of the kind that its tag asks for, and any of the reads may be skipped
    without a change to the others. Where all of them may be skipped, reading fails only since the
    payload of a movie header or sample table that is to be read disagrees with itself. So without
    such reads it makes no difference to success whether atoms are read or skipped. -/
theorem run_sparing (directives : List Directive) (source : Source) :
    (∀ extraction, (run directives source).1.result = .ok extraction →
      extraction.atoms.map Atom.tag = readTags directives ∧
      (∀ atom ∈ extraction.atoms, atom.KindFits) ∧
      ∀ keep, (run (sparing keep 0 directives) source).1.result =
          .ok ⟨extraction.fileType, kept keep 0 extraction.atoms⟩ ∧
        (run (sparing keep 0 directives) source).2.rest = (run directives source).2.rest) ∧
    (∀ extraction error,
      (run (sparing (fun _ => false) 0 directives) source).1.result = .ok extraction →
      (run directives source).1.result = .error error →
        ((∃ cause, error = .layout cause) ∨ ∃ tag size, error = .invalidSize tag size) ∧
        ∃ before tag after, directives = before ++ ⟨.read, tag⟩ :: after ∧
          (tag = Tag.movieHeader ∨ tag = Tag.sampleTable) ∧
          (∃ earlier, (run before source).1.result = .ok earlier) ∧
          Refuses tag source.ending (run before source).2.rest error
            (run directives source).2.rest) ∧
    ((∀ tag ∈ readTags directives, tag ≠ Tag.movieHeader ∧ tag ≠ Tag.sampleTable) →
      ((∃ extraction, (run directives source).1.result = .ok extraction) ↔
        ∃ extraction,
          (run (sparing (fun _ => false) 0 directives) source).1.result = .ok extraction)) := by
  refine ⟨?_, ?_, ?_⟩
  · intro extraction h
    obtain ⟨behind, -, -, hholds, htags⟩ := holds_of_run_ok h
    refine ⟨htags, fun atom hatom => ?_, run_sparing_ok h⟩
    obtain ⟨front, payload, tail, -, -, hdecode⟩ := hholds.exists_of_mem hatom
    exact (Atom.ofPayload_result_eq_ok.mp hdecode).2.1
  · intro extraction error hspared h
    obtain ⟨before, tag, after, hsplit, hearlier, hrefuses⟩ := refuses_of_run_sparing hspared h
    exact ⟨hrefuses.inward.cases, before, tag, after, hsplit, hrefuses.tag_eq, hearlier, hrefuses⟩
  · intro htags
    constructor
    · rintro ⟨extraction, h⟩
      exact ⟨_, (run_sparing_ok h _).1⟩
    · rintro ⟨extraction, hspared⟩
      rcases hresult : (run directives source).1.result with error | found
      · obtain ⟨before, tag, after, rfl, -, hrefuses⟩ := refuses_of_run_sparing hspared hresult
        have htag : tag ∈ readTags (before ++ ⟨.read, tag⟩ :: after) := by
          simp [readTags]
        obtain ⟨hmovie, htable⟩ := htags tag htag
        rcases hrefuses.tag_eq with rfl | rfl
        · exact absurd rfl hmovie
        · exact absurd rfl htable
      · exact ⟨found, rfl⟩

/-- A movie header that breaks off, and free space behind it. -/
def brokenMovie : List Node := [
  .leaf Tag.movieHeader [1, 2],
  .leaf (Tag.spelled 'f' 'r' 'e' 'e') [3]]

def readBroken : List Directive := [
  ⟨.read, Tag.movieHeader⟩,
  ⟨.read, Tag.spelled 'f' 'r' 'e' 'e'⟩]

theorem run_sparing_brokenMovie :
    let source := Source.ofBytes (plainFileType.toBytes ++ Forest.bytes brokenMovie)
    let error := DecodeError.layout (.truncated Tag.movieHeader)
    (run (sparing (fun _ => false) 0 readBroken) source).1.result = .ok ⟨plainFileType, []⟩ ∧
      (run readBroken source).1.result = .error error ∧
      ∃ before tag after, readBroken = before ++ ⟨.read, tag⟩ :: after ∧
        Refuses tag .endOfInput (run before source).2.rest error
          (run readBroken source).2.rest := by
  intro source error
  have hwell : plainFileType.WellFormed := ⟨rfl, rfl⟩
  have hfits : Forest.Fits brokenMovie := by decide
  have hskip : Forest.walk (sparing (fun _ => false) 0 readBroken) brokenMovie =
      some (.ok [], []) := rfl
  have hread : Forest.walk readBroken brokenMovie =
      some (.error error, [.leaf (Tag.spelled 'f' 'r' 'e' 'e') [3]]) := rfl
  have hrest : source.rest = plainFileType.toBytes ++ Forest.bytes brokenMovie := rfl
  obtain ⟨_, hskipped⟩ := yields_run_forest hwell hfits hskip
  obtain ⟨_, hrefused⟩ := yields_run_forest hwell hfits hread
  have hok := congrArg Logged.result (hskipped.eq hrest rfl).1
  have herror := congrArg Logged.result (hrefused.eq hrest rfl).1
  obtain ⟨-, before, tag, after, hsplit, -, -, hrefuses⟩ :=
    (run_sparing readBroken source).2.1 _ _ hok herror
  exact ⟨hok, herror, before, tag, after, hsplit, hrefuses⟩

end MovieAtoms.Walk
