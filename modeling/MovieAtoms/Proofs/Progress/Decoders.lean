import MovieAtoms.Proofs.Progress.Loops
import MovieAtoms.Proofs.SampleTable.Count

/-!
# The loops of decoding

A sample table is decoded by three loops: two over its entries, and in each entry for video one over
a chain of extensions. Here they are written as loops that nothing bounds, and the decoders around
them without saying why they end. Main statements: `decodeChain_progresses` and
`decodeTable_progresses`. Whatever the bytes are, each pass of these loops takes the width of a header
at least, so they end, with what `Extension.decodeChain` and `SampleTable.decode` come to.
-/

namespace MovieAtoms.Unbounded

/-! ### Chains of extensions -/

/-- Where the loop over a chain stands: what it has found, and its cursor. -/
structure ChainState where
  found : List Extension
  cursor : Extension.Cursor

namespace ChainState

def start (chain : Bytes) : ChainState := ⟨[], .start chain⟩

def unread (state : ChainState) : Bytes := state.cursor.unread

/-- What the loop comes to from here. -/
def outcome (state : ChainState) : Logged (List Extension) :=
  state.cursor.run >>= fun others => return state.found ++ others

end ChainState

def chainLoop : Loop ChainState (Logged (List Extension)) := fun state =>
  Part.some <|
    if state.cursor.left = 0 then .inl (return state.found)
    else if Payload.isPadding state.cursor.unread then .inl do
      Logged.report (.ignoringPadding state.cursor.left.toNat)
      return state.found
    else
      match state.cursor.take with
      | .error error => .inl (Logged.fail error)
      | .ok (extension, next) => .inr ⟨state.found ++ [extension], next⟩

def decodeChain (chain : Bytes) : Part (Logged (List Extension)) :=
  PFun.fix chainLoop (.start chain)

theorem goes_chainLoop {state next : ChainState} (h : chainLoop.Goes state next) :
    ∃ extension, state.cursor.take = .ok (extension, next.cursor) ∧
      next.found = state.found ++ [extension] := by
  rw [Loop.Goes, chainLoop, Part.mem_some_iff] at h
  split at h
  · cases h
  split at h
  · cases h
  split at h
  · cases h
  · rename_i extension cursor htake
    cases h
    exact ⟨extension, htake, rfl⟩

theorem consumes_chainLoop : chainLoop.Consumes ChainState.unread := by
  intro state next hgoes
  obtain ⟨extension, htake, -⟩ := goes_chainLoop hgoes
  obtain ⟨hwell, hunread, -⟩ := Extension.Cursor.of_take htake
  refine ⟨extension.toBytes, hunread, ?_⟩
  rw [hwell.length_toBytes, hwell.size]
  exact Nat.le_add_right _ _

theorem computes_chainLoop (state : ChainState) :
    chainLoop.Computes ChainState.outcome state := by
  rw [Loop.Computes, chainLoop, ChainState.outcome]
  by_cases hempty : state.cursor.left = 0
  · rw [if_pos hempty, Extension.Cursor.run, if_pos hempty]
    simp
  by_cases hpadding : Payload.isPadding state.cursor.unread
  · rw [if_neg hempty, if_pos hpadding, Extension.Cursor.run, if_neg hempty, if_pos hpadding]
    simp
  rw [if_neg hempty, if_neg hpadding]
  cases htake : state.cursor.take with
  | error error =>
      rw [Extension.Cursor.run_eq_fail hempty hpadding htake]
      exact Or.inl rfl
  | ok taken =>
      obtain ⟨extension, next⟩ := taken
      rw [Extension.Cursor.run_eq_bind hempty hpadding htake]
      refine Or.inr ⟨⟨state.found ++ [extension], next⟩, rfl, ?_⟩
      simp [ChainState.outcome]

theorem progresses_chainLoop (chain : Bytes) :
    chainLoop.Progresses ChainState.unread (fun state => state.found.length) (.start chain)
      (Extension.Cursor.start chain).run := by
  have houtcome : (ChainState.start chain).outcome = (Extension.Cursor.start chain).run := by
    simp [ChainState.outcome, ChainState.start]
  rw [← houtcome]
  apply consumes_chainLoop.progresses
  · intro state next hgoes
    obtain ⟨extension, -, hfound⟩ := goes_chainLoop hgoes
    simp [hfound]
  · rfl
  · exact computes_chainLoop

/-- On chains whose length a counter of 32 bits can hold, the loop is the decoder. -/
theorem decodeChain_eq {chain : Bytes} (hsize : chain.length < UInt32.size) :
    decodeChain chain = Part.some (Extension.decodeChain chain) := by
  rw [decodeChain, (progresses_chainLoop chain).ends, (Extension.Cursor.counts_start hsize).run]
  rfl

/-! ### Sample descriptions -/

def decodeVideo (header : Header) (body : Bytes) : Part (Logged VideoDescription) :=
  match Payload.fixedFields header.tag (VideoDescription.fields header) body with
  | .error error => Part.some (Logged.fail error)
  | .ok (video, chain) =>
      (decodeChain chain).map fun log => do
        let extensions ← log
        return { video with extensions }

/-- Only the descriptions of video that are large enough hold a chain. -/
def describe (child : Child) : Part (Logged SampleDescription) :=
  if child.header.tag = Tag.avcVideo ∧
      ¬child.header.size.toNat < VideoDescription.leastSize then
    (decodeVideo child.header child.body).map fun log => do return .video (← log)
  else Part.some (SampleDescription.ofChild child)

theorem decodeVideo_eq (header : Header) {body : Bytes} (hbody : body.length < UInt32.size) :
    decodeVideo header body = Part.some (VideoDescription.decode header body) := by
  rw [decodeVideo, VideoDescription.decode]
  cases hfields : Payload.fixedFields header.tag (VideoDescription.fields header) body with
  | error error => rfl
  | ok taken =>
      obtain ⟨video, chain⟩ := taken
      obtain ⟨-, name, -, hsplit⟩ :=
        VideoDescription.fields_eq_some.mp (Payload.fixedFields_eq_ok.mp hfields)
      have hchain : chain.length < UInt32.size := by
        rw [hsplit, List.length_append] at hbody
        omega
      simp only [decodeChain_eq hchain, Part.map_some]
      rfl

theorem describe_eq {child : Child} (hbody : child.body.length < UInt32.size) :
    describe child = Part.some (SampleDescription.ofChild child) := by
  rw [describe]
  split
  · rename_i hvideo
    rw [decodeVideo_eq child.header hbody, Part.map_some, SampleDescription.ofChild,
      if_pos hvideo.1, if_neg hvideo.2]
  · rfl

/-! ### Sample tables -/

/-- Where the loops over the entries of a table stand. -/
structure TableState where
  /-- The declared entries that the first loop is still to take. -/
  declared : Nat
  events : List Event
  entries : List SampleDescription
  unread : Bytes

namespace TableState

def start (declared : Nat) (table : Bytes) : TableState := ⟨declared, [], [], table⟩

/-- Adds an entry that was decoded, with its events, if it was. -/
def add (declared : Nat) (rest : Bytes) (state : TableState) :
    Logged SampleDescription → Logged (List SampleDescription) ⊕ TableState
  | ⟨events, .error error⟩ => .inl ⟨state.events ++ events, .error error⟩
  | ⟨events, .ok entry⟩ =>
      .inr ⟨declared, state.events ++ events, state.entries ++ [entry], rest⟩

/-- Takes an entry, after which so many declared ones are still to come. -/
def take (declared : Nat) (state : TableState) :
    Part (Logged (List SampleDescription) ⊕ TableState) :=
  match SampleTable.firstEntry state.unread with
  | .error error => Part.some (.inl ⟨state.events, .error error⟩)
  | .ok child => (describe child).map (state.add declared child.rest)

end TableState

/-- The two loops over the entries, one after the other: the first takes the declared entries, and
    the second takes what is left, up to the padding. -/
def entryLoop : Loop TableState (Logged (List SampleDescription)) := fun state =>
  match state.declared with
  | declared + 1 => state.take declared
  | 0 =>
      if Payload.isPadding state.unread then Part.some (.inl ⟨state.events, .ok state.entries⟩)
      else state.take 0

def decodeTable (header : Header) (payload : Bytes) : Part (Logged SampleTable) :=
  match Payload.fixedFields Tag.sampleTable SampleTable.fixedFields payload with
  | .error error => Part.some (Logged.fail error)
  | .ok ((version, flags, declared), table) =>
      let room := table.length / Header.width
      if room < declared.toNat then
        Part.some (Logged.fail (.layout (.entryTableOverflow declared.toNat room)))
      else
        (PFun.fix entryLoop (.start declared.toNat table)).map fun log => do
          let entries ← log
          if entries.length = declared.toNat then return { header, version, flags, entries }
          else Logged.fail (.layout (.entryCount declared.toNat entries.length))

/-- Both runs over the entries of a table, as one. -/
def allEntries (declared : Nat) (table : Bytes) : Logged (List SampleDescription) := do
  let (asDeclared, rest) ← SampleTable.decodeEntries declared table
  let others ← SampleTable.decodeToEnd rest
  return asDeclared ++ others

/-- An entry, and then the others with so many declared ones among them. -/
def entryAndMore (declared : Nat) (table : Bytes) : Logged (List SampleDescription) := do
  let child ← Logged.ofExcept (SampleTable.firstEntry table)
  let entry ← SampleDescription.ofChild child
  let others ← allEntries declared child.rest
  return entry :: others

theorem entryAndMore_of_error {declared : Nat} {table : Bytes} {error : DecodeError}
    (h : SampleTable.firstEntry table = .error error) :
    entryAndMore declared table = Logged.fail error := by
  rw [entryAndMore, h]
  rfl

theorem entryAndMore_of_child {declared : Nat} {table : Bytes} {child : Child}
    (h : SampleTable.firstEntry table = .ok child) :
    entryAndMore declared table = (do
      let entry ← SampleDescription.ofChild child
      let others ← allEntries declared child.rest
      return entry :: others) := by
  rw [entryAndMore, h]
  rfl

theorem allEntries_succ (declared : Nat) (table : Bytes) :
    allEntries (declared + 1) table = entryAndMore declared table := by
  simp [allEntries, entryAndMore, SampleTable.decodeEntries]

theorem allEntries_zero (table : Bytes) : allEntries 0 table = SampleTable.decodeToEnd table := by
  simp [allEntries, SampleTable.decodeEntries]

theorem allEntries_zero_of_padding {table : Bytes} (hpadding : Payload.isPadding table) :
    allEntries 0 table = pure [] := by
  rw [allEntries_zero, SampleTable.decodeToEnd, if_pos hpadding]

theorem allEntries_zero_of_atom {table : Bytes} (hatom : ¬Payload.isPadding table) :
    allEntries 0 table = entryAndMore 0 table := by
  rw [allEntries_zero]
  cases hfirst : SampleTable.firstEntry table with
  | error error =>
      rw [entryAndMore_of_error hfirst, SampleTable.decodeToEnd_eq_fail hatom hfirst]
  | ok child =>
      rw [entryAndMore_of_child hfirst, SampleTable.decodeToEnd_eq_bind hatom hfirst]
      simp only [allEntries_zero]

/-- What the loops come to from here, given what they come to on the unread entries. -/
def TableState.after (state : TableState) (log : Logged (List SampleDescription)) :
    Logged (List SampleDescription) :=
  ⟨state.events ++ log.events, log.result.map (state.entries ++ ·)⟩

def TableState.outcome (state : TableState) : Logged (List SampleDescription) :=
  state.after (allEntries state.declared state.unread)

section

variable {state next : TableState} {declared : Nat} {child : Child}

theorem length_body_lt {table : Bytes} (h : SampleTable.firstEntry table = .ok child) :
    child.body.length < UInt32.size := by
  rw [(Payload.firstChild_eq_ok.mp h).2.2, Header.payloadLength]
  exact Nat.lt_of_le_of_lt (Nat.sub_le _ _) child.header.size.toNat_lt

theorem take_of_child (h : SampleTable.firstEntry state.unread = .ok child) :
    state.take declared =
      Part.some (state.add declared child.rest (SampleDescription.ofChild child)) := by
  simp only [TableState.take, h, describe_eq (length_body_lt h), Part.map_some]

/-- An entry that was added counts as one of those that are still to come. -/
theorem after_add (events : List Event) (entry : SampleDescription)
    (log : Logged (List SampleDescription)) (rest : Bytes) :
    state.after ((⟨events, .ok entry⟩ : Logged _) >>= fun entry => do
      let others ← log
      return entry :: others) =
    TableState.after ⟨declared, state.events ++ events, state.entries ++ [entry], rest⟩ log := by
  obtain ⟨later, error | others⟩ := log <;>
    simp [TableState.after, bind, Logged.andThen, Except.map, pure]

/-- Taking an entry is what both runs do first. -/
theorem computes_take
    (h : allEntries state.declared state.unread = entryAndMore declared state.unread) :
    state.take declared = Part.some (.inl state.outcome) ∨
      ∃ next, state.take declared = Part.some (.inr next) ∧ next.outcome = state.outcome := by
  rw [TableState.outcome, h]
  cases hfirst : SampleTable.firstEntry state.unread with
  | error error =>
      rw [entryAndMore_of_error hfirst]
      refine Or.inl ?_
      simp [TableState.take, hfirst, TableState.after, Logged.fail, Except.map]
  | ok child =>
      rw [entryAndMore_of_child hfirst, take_of_child hfirst]
      obtain ⟨events, error | entry⟩ := SampleDescription.ofChild child
      · exact Or.inl rfl
      · refine Or.inr ⟨_, rfl, ?_⟩
        rw [after_add, TableState.outcome]

theorem computes_entryLoop (state : TableState) :
    entryLoop.Computes TableState.outcome state := by
  rw [Loop.Computes, entryLoop]
  cases hdeclared : state.declared with
  | succ declared =>
      apply computes_take
      rw [hdeclared, allEntries_succ]
  | zero =>
      by_cases hpadding : Payload.isPadding state.unread
      · refine Or.inl ?_
        simp [hpadding, TableState.outcome, hdeclared, allEntries_zero_of_padding hpadding,
          TableState.after, pure, Except.map]
      · simp only [if_neg hpadding]
        apply computes_take
        rw [hdeclared, allEntries_zero_of_atom hpadding]

theorem goes_take (h : Sum.inr next ∈ state.take declared) :
    ∃ child entry, SampleTable.firstEntry state.unread = .ok child ∧
      next.entries = state.entries ++ [entry] ∧ next.unread = child.rest := by
  cases hfirst : SampleTable.firstEntry state.unread with
  | error error =>
      simp only [TableState.take, hfirst, Part.mem_some_iff] at h
      cases h
  | ok child =>
      rw [take_of_child hfirst, Part.mem_some_iff] at h
      generalize SampleDescription.ofChild child = log at h
      obtain ⟨events, error | entry⟩ := log
      · cases h
      · cases h
        exact ⟨child, entry, rfl, rfl, rfl⟩

theorem goes_entryLoop (h : entryLoop.Goes state next) :
    ∃ child entry, SampleTable.firstEntry state.unread = .ok child ∧
      next.entries = state.entries ++ [entry] ∧ next.unread = child.rest := by
  rw [Loop.Goes, entryLoop] at h
  split at h
  · exact goes_take h
  split at h
  · cases Part.mem_some_iff.mp h
  · exact goes_take h

end

theorem consumes_entryLoop : entryLoop.Consumes TableState.unread := by
  intro state next hgoes
  obtain ⟨child, entry, hfirst, -, hunread⟩ := goes_entryLoop hgoes
  obtain ⟨hsplit, hsize, hbody⟩ := Payload.firstChild_eq_ok.mp hfirst
  refine ⟨child.header.toBytes ++ child.body, ?_, ?_⟩
  · rw [hsplit, hunread, List.append_assoc]
  · rw [List.length_append, Header.length_toBytes]
    exact Nat.le_add_right _ _

theorem progresses_entryLoop (declared : Nat) (table : Bytes) :
    entryLoop.Progresses TableState.unread (fun state => state.entries.length)
      (.start declared table) (allEntries declared table) := by
  have houtcome : (TableState.start declared table).outcome = allEntries declared table := by
    rw [TableState.outcome, TableState.start]
    rcases allEntries declared table with ⟨events, error | entries⟩ <;> rfl
  rw [← houtcome]
  apply consumes_entryLoop.progresses
  · intro state next hgoes
    obtain ⟨child, entry, -, hentries, -⟩ := goes_entryLoop hgoes
    simp [hentries]
  · rfl
  · exact computes_entryLoop

theorem decodeTable_eq (header : Header) (payload : Bytes) :
    decodeTable header payload = Part.some (SampleTable.decode header payload) := by
  rw [decodeTable, SampleTable.decode]
  cases hfixed : Payload.fixedFields Tag.sampleTable SampleTable.fixedFields payload with
  | error error => rfl
  | ok taken =>
      obtain ⟨⟨version, flags, declared⟩, table⟩ := taken
      simp only [(progresses_entryLoop declared.toNat table).ends, Part.map_some, allEntries]
      change (if _ then _ else _) = Part.some (if _ then _ else _)
      split
      · rfl
      · simp

/-! ### What the loops find -/

/-- What the loop over a chain comes to is what it has found when it ends. -/
theorem eq_found_of_mem {state : ChainState} {log : Logged (List Extension)}
    {extensions : List Extension} (h : Sum.inl log ∈ chainLoop state)
    (hlog : log.result = .ok extensions) : extensions = state.found := by
  rw [chainLoop, Part.mem_some_iff] at h
  split at h
  · cases h
    cases hlog
    rfl
  split at h
  · cases h
    cases hlog
    rfl
  split at h
  · cases h
    cases hlog
  · cases h

/-- What decoding a chain owes to its bytes. -/
structure ChainProgresses (chain : Bytes) : Prop where
  loop : chainLoop.Progresses ChainState.unread (fun state => state.found.length) (.start chain)
    (Extension.Cursor.start chain).run
  /-- The counter goes down by what a pass takes, and never below zero. -/
  counts : ∀ state next, chainLoop.Goes state next → ∃ taken,
    state.unread = taken ++ next.unread ∧
      next.cursor.left.toNat + taken.length = state.cursor.left.toNat
  found : ∀ extensions, (Extension.Cursor.start chain).run.result = .ok extensions →
    extensions.length ≤ chain.length / Header.width
  /-- The counter holds the length of every chain inside an atom. -/
  ends : chain.length < UInt32.size → decodeChain chain = Part.some (Extension.decodeChain chain)

theorem decodeChain_progresses (chain : Bytes) : ChainProgresses chain where
  loop := progresses_chainLoop chain
  counts := by
    intro state next hgoes
    obtain ⟨extension, htake, -⟩ := goes_chainLoop hgoes
    obtain ⟨hwell, hunread, hleft⟩ := Extension.Cursor.of_take htake
    exact ⟨extension.toBytes, hunread, hwell.length_toBytes ▸ hleft⟩
  found := by
    intro extensions hextensions
    obtain ⟨last, hreaches, hend⟩ := (progresses_chainLoop chain).exists_last
    rw [eq_found_of_mem hend hextensions]
    exact (progresses_chainLoop chain).count_le last hreaches
  ends := decodeChain_eq

section

variable {header : Header} {payload : Bytes}

/-- Entries that were parsed to the end of a table fit into it. -/
theorem length_entries_le {table : Bytes} {entries : List SampleDescription}
    (h : SampleTable.Entries table (.ok entries)) :
    entries.length ≤ table.length / Header.width := by
  obtain ⟨pieces, hpieces, padding, -, htable⟩ := SampleTable.exists_eq_flatten h.eq
  apply (Nat.le_div_iff_mul_le (by decide)).mpr
  rw [htable, List.length_append, Nat.mul_comm]
  exact Nat.le_trans (SampleTable.width_mul_length_le hpieces) (Nat.le_add_right _ _)

theorem length_written (version : UInt8) (flags : Block 3) (declared : UInt32) (table : Bytes) :
    (SampleTable.written version flags declared table).length - 8 = table.length := by
  simp [SampleTable.written, Wire.ofUInt8, Wire.ofUInt32, flags.length_bytes]
  omega

/-- Decoding a table tells of no more entries than fit in behind the fixed fields, neither by a
    record nor by a number. -/
structure TellsFew (payload : Bytes) (result : Except DecodeError SampleTable) : Prop where
  record : ∀ table, result = .ok table →
    table.entries.length ≤ (payload.length - 8) / Header.width
  miscounted : ∀ declared decoded, result = .error (.layout (.entryCount declared decoded)) →
    decoded ≤ (payload.length - 8) / Header.width

theorem tellsFew_of_ofEntry {error : DecodeError} (h : error.OfEntry) :
    TellsFew payload (.error error) where
  record := fun _ hrecord => by cases hrecord
  miscounted := by
    intro declared decoded hcount
    cases hcount
    exact h.elim

theorem tellsFew_judge {version : UInt8} {flags : Block 3} {declared : Nat}
    {entries : List SampleDescription}
    (h : entries.length ≤ (payload.length - 8) / Header.width) :
    TellsFew payload (SampleTable.judge header version flags declared entries) := by
  rw [SampleTable.judge]
  split
  · exact tellsFew_of_ofEntry trivial
  split
  · constructor
    case record => exact fun _ hrecord => by cases hrecord
    case miscounted =>
      intro stated decoded hcount
      cases hcount
      exact h
  · constructor
    case record =>
      intro table htable
      cases htable
      exact h
    case miscounted => exact fun _ _ hcount => by cases hcount

theorem tellsFew_decode (header : Header) (payload : Bytes) :
    TellsFew payload (SampleTable.decode header payload).result := by
  by_cases hshort : payload.length < 8
  · rw [SampleTable.decode, Payload.fixedFields_of_short SampleTable.takes_fixedFields hshort]
    exact tellsFew_of_ofEntry trivial
  obtain ⟨version, flags, declared, table, rfl⟩ :=
    SampleTable.exists_eq_written (Nat.le_of_not_lt hshort)
  rcases SampleTable.decode_written header version flags declared table with
    hover | ⟨found, hfound, hresult⟩
  · rw [hover]
    exact tellsFew_of_ofEntry trivial
  · rw [hresult]
    cases found with
    | error error => exact tellsFew_of_ofEntry (hfound.ofEntry rfl)
    | ok entries =>
        apply tellsFew_judge
        rw [length_written]
        exact length_entries_le hfound

end

/-- What decoding a sample table owes to its payload. No declared number makes the loops find more
    entries than there is room for behind the fixed fields. -/
structure TableProgresses (header : Header) (payload : Bytes) : Prop where
  loops : ∀ declared, entryLoop.Progresses TableState.unread (fun state => state.entries.length)
    (.start declared (payload.drop 8)) (allEntries declared (payload.drop 8))
  entries : ∀ declared state, entryLoop.Reaches (.start declared (payload.drop 8)) state →
    state.entries.length ≤ (payload.length - 8) / Header.width
  told : TellsFew payload (SampleTable.decode header payload).result
  ends : decodeTable header payload = Part.some (SampleTable.decode header payload)

theorem decodeTable_progresses (header : Header) (payload : Bytes) :
    TableProgresses header payload where
  loops := fun declared => progresses_entryLoop declared (payload.drop 8)
  entries := by
    intro declared state hreaches
    have hcount := (progresses_entryLoop declared (payload.drop 8)).count_le state hreaches
    rw [TableState.unread, TableState.start, List.length_drop] at hcount
    exact hcount
  told := tellsFew_decode header payload
  ends := decodeTable_eq header payload

end MovieAtoms.Unbounded
