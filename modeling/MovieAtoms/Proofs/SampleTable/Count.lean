import MovieAtoms.Proofs.SampleTable.Counter
import MovieAtoms.Proofs.SampleTable.Entries

/-!
# The declared number of entries

Decoding a table runs through the declared number of entries first and through whatever is left after
that. Padding ends the second run only. `Entries` is one parse from the first entry to the end of the
table that knows nothing of the declared number. Main statement: `decode_entries`, by which decoding
comes to what this parse comes to, once the number of its entries is compared to the declared one.
-/

namespace MovieAtoms

/-! ### Errors that do not tell of the number of entries -/

/-- The error is about one entry, not about how many there are. -/
def DecodeError.OfEntry : DecodeError → Prop
  | .layout (.entryCount ..) => False
  | _ => True

theorem Extension.Greedy.ofEntry {unread : Bytes} {error : DecodeError}
    (h : Greedy unread (.fail error)) : error.OfEntry := by
  cases h <;> trivial

theorem Extension.Parses.ofEntry {chain : Bytes} {found : Except DecodeError (List Extension)}
    (h : Parses chain found) {error : DecodeError} (herror : found = .error error) :
    error.OfEntry := by
  induction h with
  | stop => cases herror
  | fail h =>
      cases herror
      exact h.ofEntry
  | @take _ _ _ found _ _ ih =>
      cases found with
      | error =>
          cases herror
          exact ih rfl
      | ok => cases herror

theorem SampleDescription.ofEntry_of_ofChild {child : Child} {error : DecodeError}
    (hbody : child.body.length = child.header.payloadLength)
    (h : (ofChild child).result = .error error) : error.OfEntry := by
  by_cases htag : child.header.tag = Tag.avcVideo
  · by_cases hsmall : child.header.size.toNat < VideoDescription.leastSize
    · simp only [ofChild, if_pos htag, if_pos hsmall] at h
      cases h
      trivial
    · obtain ⟨fixed, -, hresult⟩ := ofChild_video htag (Nat.le_of_not_lt hsmall) hbody
      rw [hresult] at h
      cases hchain : (Extension.decodeChain (VideoDescription.chainIn child.body)).result with
      | error =>
          rw [hchain] at h
          cases h
          exact (Extension.parses_iff.mpr hchain).ofEntry rfl
      | ok =>
          rw [hchain] at h
          cases h
  · simp only [ofChild, if_neg htag] at h
    split at h <;> cases h

namespace SampleTable

/-- The first entry of a table, and what follows it. -/
def nextEntry (table : Bytes) : Except DecodeError (SampleDescription × Bytes) := do
  let child ← firstEntry table
  let entry ← (SampleDescription.ofChild child).result
  return (entry, child.rest)

/-- What the run through the declared entries and the run through the rest come to together. -/
def runs (count : Nat) (table : Bytes) : Except DecodeError (List SampleDescription) :=
  (decodeEntries count table).result.bind fun (asDeclared, rest) =>
    (decodeToEnd rest).result.map (asDeclared ++ ·)

/-- Nothing but zero bytes is left, and fewer than a header has. -/
def Finished (table : Bytes) : Prop :=
  table.length < Header.width ∧ ∀ byte ∈ table, byte = 0

/-- What parsing entries up to the end of a table comes to. -/
inductive Entries : Bytes → Except DecodeError (List SampleDescription) → Prop where
  | finished {table : Bytes} (hend : Finished table) : Entries table (.ok [])
  | failed {table : Bytes} {error : DecodeError} (hmore : ¬Finished table)
      (hentry : nextEntry table = .error error) : Entries table (.error error)
  | entry {table rest : Bytes} {entry : SampleDescription}
      {found : Except DecodeError (List SampleDescription)} (hmore : ¬Finished table)
      (hentry : nextEntry table = .ok (entry, rest)) (hrest : Entries rest found) :
      Entries table (found.map (entry :: ·))

/-- What becomes of all entries of a table that declares so many. -/
def judge (header : Header) (version : UInt8) (flags : Block 3) (declared : Nat)
    (entries : List SampleDescription) : Except DecodeError SampleTable :=
  if entries.length < declared then .error (.layout (.truncated Tag.sampleTable))
  else if declared < entries.length then
    .error (.layout (.entryCount declared entries.length))
  else .ok { header, version, flags, entries }

variable {table rest : Bytes} {entry : SampleDescription} {count : Nat} {error : DecodeError}
  {found : Except DecodeError (List SampleDescription)}

/-! ### Single entries -/

theorem nextEntry_of_finished (hend : Finished table) :
    nextEntry table = .error (.layout (.truncated Tag.sampleTable)) := by
  rw [nextEntry, firstEntry, Payload.firstChild_of_short hend.1]
  rfl

theorem length_lt_of_nextEntry (h : nextEntry table = .ok (entry, rest)) :
    rest.length < table.length := by
  obtain ⟨child, hfirst, h⟩ := DecodeError.bind_eq_ok.mp h
  obtain ⟨_, -, h⟩ := DecodeError.bind_eq_ok.mp h
  cases h
  exact Payload.length_rest_lt hfirst

theorem ofEntry_of_firstEntry (h : firstEntry table = .error error) : error.OfEntry := by
  rw [firstEntry] at h
  cases Payload.front table with
  | short hshort =>
      rw [Payload.firstChild_of_short hshort] at h
      cases h
      trivial
  | badSize hbad =>
      rw [Payload.firstChild_of_badSize hbad] at h
      cases h
      trivial
  | overrun hsize hover =>
      rw [Payload.firstChild_of_overrun hsize hover] at h
      cases h
      trivial
  | whole hsize =>
      rw [Payload.firstChild_of_whole hsize] at h
      cases h

theorem ofEntry_of_nextEntry (h : nextEntry table = .error error) : error.OfEntry := by
  rw [nextEntry] at h
  cases hfirst : firstEntry table with
  | error =>
      rw [hfirst] at h
      cases h
      exact ofEntry_of_firstEntry hfirst
  | ok child =>
      rw [hfirst] at h
      have hbody := (Payload.firstChild_eq_ok.mp hfirst).2.2
      cases hentry : (SampleDescription.ofChild child).result with
      | error =>
          change ((SampleDescription.ofChild child).result >>= _) = _ at h
          rw [hentry] at h
          cases h
          exact SampleDescription.ofEntry_of_ofChild hbody hentry
      | ok =>
          change ((SampleDescription.ofChild child).result >>= _) = _ at h
          rw [hentry] at h
          cases h

/-! ### Both runs by single entries -/

theorem runs_zero : runs 0 table = (decodeToEnd table).result := by
  change (decodeToEnd table).result.map ([] ++ ·) = _
  cases (decodeToEnd table).result <;> rfl

theorem runs_succ :
    runs (count + 1) table =
      (nextEntry table).bind fun (entry, rest) => (runs count rest).map (entry :: ·) := by
  rw [runs, decodeEntries, Logged.result_bind, nextEntry]
  cases firstEntry table with
  | error error => rfl
  | ok child =>
      change (SampleDescription.ofChild child >>= _).result.bind _ =
        ((SampleDescription.ofChild child).result >>= _).bind _
      rw [Logged.result_bind]
      cases (SampleDescription.ofChild child).result with
      | error error => rfl
      | ok entry =>
          change (decodeEntries count child.rest >>= _).result.bind _ =
            (runs count child.rest).map (entry :: ·)
          rw [Logged.result_bind, runs]
          cases (decodeEntries count child.rest).result with
          | error error => rfl
          | ok taken =>
              change (decodeToEnd taken.2).result.map _ =
                ((decodeToEnd taken.2).result.map _).map _
              cases (decodeToEnd taken.2).result <;> rfl

theorem decodeToEnd_of_finished (hend : Finished table) : (decodeToEnd table).result = .ok [] := by
  rw [decodeToEnd, if_pos (Payload.isPadding_iff.mpr hend)]
  rfl

theorem decodeToEnd_result (hmore : ¬Finished table) :
    (decodeToEnd table).result =
      (nextEntry table).bind fun (entry, rest) => (decodeToEnd rest).result.map (entry :: ·) := by
  have hatom : ¬Payload.isPadding table := fun h => hmore (Payload.isPadding_iff.mp h)
  rw [nextEntry]
  cases hfirst : firstEntry table with
  | error error =>
      rw [decodeToEnd_eq_fail hatom hfirst]
      rfl
  | ok child =>
      rw [decodeToEnd_eq_bind hatom hfirst]
      change _ = ((SampleDescription.ofChild child).result >>= _).bind _
      rw [Logged.result_bind]
      cases (SampleDescription.ofChild child).result with
      | error error => rfl
      | ok entry =>
          exact Logged.result_bind_pure (decodeToEnd child.rest) (entry :: ·)

/-! ### One parse for both -/

theorem Entries.eq (h : Entries table found) : (decodeToEnd table).result = found := by
  induction h with
  | finished hend => exact decodeToEnd_of_finished hend
  | failed hmore hentry =>
      rw [decodeToEnd_result hmore, hentry]
      rfl
  | @entry table rest entry found hmore hentry _ ih =>
      rw [decodeToEnd_result hmore, hentry]
      change (decodeToEnd rest).result.map (entry :: ·) = _
      rw [ih]

theorem exists_entries (table : Bytes) : ∃ found, Entries table found := by
  by_cases hend : Finished table
  · exact ⟨_, .finished hend⟩
  cases hentry : nextEntry table with
  | error error => exact ⟨_, .failed hend hentry⟩
  | ok taken =>
      have hshorter := length_lt_of_nextEntry hentry
      obtain ⟨found, hfound⟩ := exists_entries taken.2
      exact ⟨_, .entry hend hentry hfound⟩
termination_by table.length

theorem entries_iff : Entries table found ↔ (decodeToEnd table).result = found := by
  constructor
  · exact Entries.eq
  · intro h
    obtain ⟨other, hother⟩ := exists_entries table
    rw [← h, hother.eq]
    exact hother

/-- Both runs together find the entries of the whole table, or run out of bytes when there are fewer
    than the first is to take. -/
theorem Entries.runs_eq (count : Nat) (h : Entries table found) :
    runs count table = found.bind fun entries =>
      if entries.length < count then .error (.layout (.truncated Tag.sampleTable))
      else .ok entries := by
  induction count generalizing table found with
  | zero =>
      rw [runs_zero, h.eq]
      cases found <;> rfl
  | succ count ih =>
      rw [runs_succ]
      cases h with
      | finished hend =>
          -- the first run does not know of padding and looks for a header in it
          rw [nextEntry_of_finished hend]
          rfl
      | failed _ hentry =>
          rw [hentry]
          rfl
      | @entry _ rest entry found _ hentry hrest =>
          rw [hentry]
          change (runs count rest).map (entry :: ·) = _
          rw [ih hrest]
          cases found with
          | error error => rfl
          | ok entries =>
              by_cases hfew : entries.length < count <;> simp [Except.bind, Except.map, hfew]

theorem Entries.ofEntry (h : Entries table found) (herror : found = .error error) :
    error.OfEntry := by
  induction h with
  | finished => cases herror
  | failed _ hentry =>
      cases herror
      exact ofEntry_of_nextEntry hentry
  | @entry _ _ _ found _ _ _ ih =>
      cases found with
      | error =>
          cases herror
          exact ih rfl
      | ok => cases herror

/-! ### The declared number -/

section

variable {header : Header} {version : UInt8} {flags : Block 3} {declared : UInt32}

/-- A payload from its parts. -/
def written (version : UInt8) (flags : Block 3) (declared : UInt32) (table : Bytes) : Bytes :=
  Wire.ofUInt8 version ++ (flags.bytes ++ (Wire.ofUInt32 declared ++ table))

theorem fixedFields_written :
    Payload.fixedFields Tag.sampleTable fixedFields (written version flags declared table) =
      .ok ((version, flags, declared), table) :=
  Payload.fixedFields_eq_ok.mpr (fixedFields_eq_some.mpr rfl)

theorem exists_eq_written {payload : Bytes} (h : 8 ≤ payload.length) :
    ∃ version flags declared table, payload = written version flags declared table := by
  obtain ⟨⟨version, flags, declared⟩, hfixed⟩ := takes_fixedFields.enough payload h
  exact ⟨version, flags, declared, _, fixedFields_eq_some.mp hfixed⟩

theorem decode_of_overflow (hover : table.length / Header.width < declared.toNat) :
    (decode header (written version flags declared table)).result =
      .error (.layout (.entryTableOverflow declared.toNat (table.length / Header.width))) := by
  rw [decode, fixedFields_written]
  change (if _ then _ else _ : Logged SampleTable).result = _
  rw [if_pos hover]
  rfl

theorem decode_of_room (hroom : declared.toNat ≤ table.length / Header.width) :
    (decode header (written version flags declared table)).result =
      (runs declared.toNat table).bind fun entries =>
        if entries.length = declared.toNat then .ok { header, version, flags, entries }
        else .error (.layout (.entryCount declared.toNat entries.length)) := by
  rw [decode, fixedFields_written]
  change (if _ then _ else _ : Logged SampleTable).result = _
  rw [if_neg (Nat.not_lt.mpr hroom), Logged.result_bind, runs]
  cases (decodeEntries declared.toNat table).result with
  | error error => rfl
  | ok taken =>
      obtain ⟨asDeclared, rest⟩ := taken
      change (decodeToEnd rest >>= _).result = ((decodeToEnd rest).result.map _).bind _
      rw [Logged.result_bind]
      cases (decodeToEnd rest).result with
      | error error => rfl
      | ok others =>
          change (if _ then _ else _ : Logged SampleTable).result = if _ then _ else _
          split <;> rfl

theorem decode_of_entries (hroom : declared.toNat ≤ table.length / Header.width)
    (h : Entries table found) :
    (decode header (written version flags declared table)).result =
      found.bind (judge header version flags declared.toNat) := by
  rw [decode_of_room hroom, h.runs_eq]
  cases found with
  | error error => rfl
  | ok entries =>
      simp only [Except.bind, judge]
      by_cases hfew : entries.length < declared.toNat
      · simp only [if_pos hfew]
      · by_cases hmany : declared.toNat < entries.length
        · simp only [if_neg hfew, if_pos hmany, if_neg (Nat.ne_of_gt hmany)]
        · have hcount : entries.length = declared.toNat := by omega
          simp only [if_neg hfew, if_neg hmany, if_pos hcount]

/-- Whether the table overflows or not, as one alternative. -/
theorem decode_written (header : Header) (version : UInt8) (flags : Block 3) (declared : UInt32)
    (table : Bytes) :
    (decode header (written version flags declared table)).result =
        .error (.layout (.entryTableOverflow declared.toNat (table.length / Header.width))) ∨
      ∃ found, Entries table found ∧
        (decode header (written version flags declared table)).result =
          found.bind (judge header version flags declared.toNat) := by
  by_cases hover : table.length / Header.width < declared.toNat
  · exact .inl (decode_of_overflow hover)
  · obtain ⟨found, hfound⟩ := exists_entries table
    exact .inr ⟨found, hfound, decode_of_entries (Nat.le_of_not_lt hover) hfound⟩

/-- Only too many entries are told by their number. -/
theorem lt_of_entryCount {stated decoded : Nat} (hentries : Entries table found)
    (h : found.bind (judge header version flags declared.toNat) =
      .error (.layout (.entryCount stated decoded))) :
    stated = declared.toNat ∧ stated < decoded := by
  cases found with
  | error error =>
      cases h
      exact (hentries.ofEntry rfl).elim
  | ok entries =>
      simp only [Except.bind, judge] at h
      split at h
      · cases h
      · split at h
        · rename_i hmany
          cases h
          exact ⟨rfl, hmany⟩
        · cases h

theorem length_of_judge_eq_ok {entries : List SampleDescription} {record : SampleTable}
    {declared : Nat} (h : judge header version flags declared entries = .ok record) :
    record.entries.length = declared := by
  unfold judge at h
  split at h
  · cases h
  · split at h
    · cases h
    · cases h
      simp only
      omega

end

/-- Decoding a table is one parse of its entries to the end, judged by the declared number. -/
theorem decode_entries (header : Header) (payload : Bytes) :
    (payload.length < 8 →
      (decode header payload).result = .error (.layout (.truncated Tag.sampleTable))) ∧
    (8 ≤ payload.length → ∃ version flags declared table,
      payload = written version flags declared table ∧
      (table.length / Header.width < declared.toNat →
        (decode header payload).result = .error (.layout
          (.entryTableOverflow declared.toNat (table.length / Header.width)))) ∧
      (declared.toNat ≤ table.length / Header.width →
        ∃ found, (∀ other, Entries table other ↔ other = found) ∧
          (decode header payload).result =
            found.bind (judge header version flags declared.toNat)) ∧
      (∀ stated decoded,
        (decode header payload).result = .error (.layout (.entryCount stated decoded)) →
          stated = declared.toNat ∧ stated < decoded) ∧
      ∀ record, (decode header payload).result = .ok record →
        record.entries.length = declared.toNat) := by
  constructor
  · intro hshort
    rw [decode, Payload.fixedFields_of_short takes_fixedFields hshort]
    rfl
  · intro henough
    obtain ⟨version, flags, declared, table, rfl⟩ := exists_eq_written henough
    refine ⟨version, flags, declared, table, rfl, decode_of_overflow, ?_, ?_, ?_⟩
    · intro hroom
      obtain ⟨found, hfound⟩ := exists_entries table
      refine ⟨found, fun other => ?_, decode_of_entries hroom hfound⟩
      rw [entries_iff, hfound.eq, eq_comm]
    · intro stated decoded h
      rcases decode_written header version flags declared table with
        hresult | ⟨found, hfound, hresult⟩
      · rw [hresult] at h
        cases h
      · rw [hresult] at h
        exact lt_of_entryCount hfound h
    · intro record h
      rcases decode_written header version flags declared table with
        hresult | ⟨found, -, hresult⟩
      · rw [hresult] at h
        cases h
      · rw [hresult] at h
        obtain ⟨entries, -, hjudge⟩ := DecodeError.bind_eq_ok.mp h
        exact length_of_judge_eq_ok hjudge

end SampleTable

end MovieAtoms
