import MovieAtoms.Proofs.Payload.Width
import MovieAtoms.Proofs.SampleTable.Chain

/-!
# Chains of extensions, one extension at a time

At the bytes of a chain that are still unread, decoding stops, fails or takes one extension and goes
on behind it. `Greedy` gives the rule for each way, without mention of the decoder; the rules leave
nothing out and do not overlap (`greedy_iff`). `Parses` applies them up to the end of the chain.
Main statement: `parses_iff`, by which decoding comes to what this parse comes to, errors included.
-/

namespace MovieAtoms.Extension

/-- What becomes of the unread bytes of a chain. -/
inductive Round where
  | stop
  | fail (error : DecodeError)
  | take (extension : Extension) (rest : Bytes)

/-- The rules of a greedy parse, in the order in which it tries them. -/
inductive Greedy : Bytes → Round → Prop where
  /-- Nothing is left but padding, or nothing at all. -/
  | finished {unread : Bytes} (hshort : unread.length < Header.width)
      (hzero : ∀ byte ∈ unread, byte = 0) : Greedy unread .stop
  | cutHeader {unread : Bytes} {byte : UInt8} (hshort : unread.length < Header.width)
      (hbyte : byte ∈ unread) (hsome : byte ≠ 0) :
      Greedy unread (.fail (.layout (.truncated Tag.avcVideo)))
  | badSize {header : Header} {rest : Bytes} (hsize : header.size.toNat < Header.width) :
      Greedy (header.toBytes ++ rest) (.fail (.invalidSize header.tag header.size.toNat))
  | overrun {header : Header} {rest : Bytes} (hsize : Header.width ≤ header.size.toNat)
      (hover : (header.toBytes ++ rest).length < header.size.toNat) :
      Greedy (header.toBytes ++ rest) (.fail (.layout (.extensionOverrun header.tag
        header.size.toNat (header.toBytes ++ rest).length)))
  | shortColor {header : Header} {body rest : Bytes} (htag : header.tag = Tag.colorInfo)
      (hsize : header.size.toNat = Header.width + body.length) (hshort : body.length < 10) :
      Greedy (header.toBytes ++ (body ++ rest)) (.fail (.layout (.truncated Tag.colorInfo)))
  | extension {extension : Extension} {rest : Bytes} (hwell : extension.WellFormed) :
      Greedy (extension.toBytes ++ rest) (.take extension rest)

/-- What a greedy parse of a whole chain comes to. -/
inductive Parses : Bytes → Except DecodeError (List Extension) → Prop where
  | stop {unread : Bytes} (h : Greedy unread .stop) : Parses unread (.ok [])
  | fail {unread : Bytes} {error : DecodeError} (h : Greedy unread (.fail error)) :
      Parses unread (.error error)
  | take {unread rest : Bytes} {extension : Extension}
      {found : Except DecodeError (List Extension)} (h : Greedy unread (.take extension rest))
      (hrest : Parses rest found) : Parses unread (found.map (extension :: ·))

variable {unread : Bytes} {extension : Extension} {header : Header} {body rest : Bytes}

/-! ### Single extensions that are refused -/

theorem ofChild_of_shortColor (htag : header.tag = Tag.colorInfo) (hshort : body.length < 10) :
    ofChild ⟨header, body, rest⟩ = .error (.layout (.truncated Tag.colorInfo)) := by
  rw [ofChild, if_pos htag, ColorInfo.decode,
    Payload.fixedFields_of_short ColorInfo.takes_fixedFields hshort]
  rfl

/-- Only colour parameters can be too short. -/
theorem exists_ofChild_eq_ok (h : header.tag = Tag.colorInfo → 10 ≤ body.length) :
    ∃ extension, ofChild ⟨header, body, rest⟩ = .ok extension := by
  by_cases hcolor : header.tag = Tag.colorInfo
  · obtain ⟨⟨parameterType, primaries, transferFunction, matrix⟩, hfields⟩ :=
      ColorInfo.takes_fixedFields.enough body (h hcolor)
    let color : ColorInfo :=
      ⟨header, parameterType, primaries, transferFunction, matrix, body.drop 10⟩
    have hbody : body = color.body := by
      rw [ColorInfo.fixedFields_eq_some.mp hfields]
      simp [ColorInfo.body, color]
    exact ⟨.colorInfo color, ofChild_eq_ok.mpr ⟨rfl, hbody, hcolor⟩⟩
  · by_cases havc : header.tag = Tag.avcConfig
    · exact ⟨.avcConfig ⟨header, body⟩, ofChild_eq_ok.mpr ⟨rfl, rfl, havc⟩⟩
    · exact ⟨.raw ⟨header, body⟩, ofChild_eq_ok.mpr ⟨rfl, rfl, hcolor, havc⟩⟩

/-! ### The decoder by rounds -/

/-- What the decoder makes of the unread bytes. -/
def round (unread : Bytes) : Round :=
  if Payload.isPadding unread then .stop
  else
    match first unread with
    | .error error => .fail error
    | .ok child =>
        match ofChild child with
        | .error error => .fail error
        | .ok extension => .take extension child.rest

theorem round_of_header {child : Child} (hchild : first unread = .ok child) :
    round unread = match ofChild child with
      | .error error => .fail error
      | .ok extension => .take extension child.rest := by
  have hatom : ¬Payload.isPadding unread := by
    rw [(Payload.firstChild_eq_ok.mp hchild).1]
    exact Payload.not_isPadding_toBytes_append _ _
  rw [round, if_neg hatom, hchild]

theorem round_of_failure {error : DecodeError} (hatom : ¬Payload.isPadding unread)
    (hfirst : first unread = .error error) : round unread = .fail error := by
  rw [round, if_neg hatom, hfirst]

theorem round_of_greedy {found : Round} (h : Greedy unread found) : round unread = found := by
  cases h with
  | finished hshort hzero => exact if_pos (Payload.isPadding_iff.mpr ⟨hshort, hzero⟩)
  | cutHeader hshort hbyte hsome =>
      apply round_of_failure
      · intro hpadding
        exact hsome ((Payload.isPadding_iff.mp hpadding).2 _ hbyte)
      · exact Payload.firstChild_of_short hshort
  | badSize hsize =>
      apply round_of_failure (Payload.not_isPadding_toBytes_append _ _)
      exact Payload.firstChild_of_badSize hsize
  | overrun hsize hover =>
      apply round_of_failure (Payload.not_isPadding_toBytes_append _ _)
      rw [List.length_append, Header.length_toBytes] at hover
      apply Payload.firstChild_of_overrun hsize
      rw [Header.payloadLength]
      omega
  | @shortColor header body rest htag hsize hshort =>
      have hfirst : first (header.toBytes ++ (body ++ rest)) = .ok ⟨header, body, rest⟩ :=
        Payload.firstChild_of_whole hsize
      rw [round_of_header hfirst, ofChild_of_shortColor htag hshort]
  | @extension extension rest hwell =>
      let child : Child := ⟨extension.header, extension.body, rest⟩
      have hchild : ofChild child = .ok extension := ofChild_eq_ok.mpr ⟨rfl, rfl, hwell.kind⟩
      have hfirst : first (extension.toBytes ++ rest) = .ok child :=
        (first_eq_ok hchild).mpr ⟨hwell, rfl⟩
      rw [round_of_header hfirst, hchild]

/-- The rules leave no bytes out. -/
theorem exists_greedy (unread : Bytes) : ∃ found, Greedy unread found := by
  cases Payload.front unread with
  | short hshort =>
      by_cases hsome : ∃ byte ∈ unread, byte ≠ 0
      · obtain ⟨byte, hbyte, hnonzero⟩ := hsome
        exact ⟨_, .cutHeader hshort hbyte hnonzero⟩
      · refine ⟨_, .finished hshort fun byte hbyte => ?_⟩
        exact Decidable.byContradiction fun hnonzero => hsome ⟨byte, hbyte, hnonzero⟩
  | badSize hbad => exact ⟨_, .badSize hbad⟩
  | overrun hsize hover =>
      refine ⟨_, .overrun hsize ?_⟩
      rw [Header.payloadLength] at hover
      rw [List.length_append, Header.length_toBytes]
      omega
  | @whole header body rest hsize =>
      by_cases hcolor : header.tag = Tag.colorInfo ∧ body.length < 10
      · exact ⟨_, .shortColor hcolor.1 hsize hcolor.2⟩
      -- whatever is left is an extension of the kind that its tag selects
      · obtain ⟨extension, hchild⟩ : ∃ extension, ofChild ⟨header, body, rest⟩ = .ok extension := by
          apply exists_ofChild_eq_ok
          intro htag
          exact Nat.le_of_not_lt fun hshort => hcolor ⟨htag, hshort⟩
        obtain ⟨rfl, rfl, hkind⟩ := ofChild_eq_ok.mp hchild
        rw [← List.append_assoc]
        exact ⟨_, .extension ⟨hkind, hsize⟩⟩

/-- The rules are those of the decoder, and so they do not overlap. -/
theorem greedy_iff {found : Round} : Greedy unread found ↔ round unread = found := by
  constructor
  · exact round_of_greedy
  · intro h
    obtain ⟨other, hother⟩ := exists_greedy unread
    rw [← h, round_of_greedy hother]
    exact hother

/-! ### Whole chains -/

theorem WellFormed.length_lt (h : extension.WellFormed) :
    rest.length < (extension.toBytes ++ rest).length := by
  rw [List.length_append, h.length_toBytes, h.size, Header.width]
  omega

theorem Greedy.length_lt (h : Greedy unread (.take extension rest)) :
    rest.length < unread.length := by
  cases h with
  | extension hwell => exact hwell.length_lt

/-- Decoding a chain is its first round and then the chain behind it. -/
theorem decodeChain_round (chain : Bytes) :
    (decodeChain chain).result = match round chain with
      | .stop => .ok []
      | .fail error => .error error
      | .take extension rest => (decodeChain rest).result.map (extension :: ·) := by
  by_cases hempty : chain.isEmpty
  · rw [List.isEmpty_iff.mp hempty, decodeChain]
    rfl
  by_cases hpadding : Payload.isPadding chain
  · rw [decodeChain, if_neg hempty, if_pos hpadding, round, if_pos hpadding]
    rfl
  cases hfirst : first chain with
  | error error =>
      rw [decodeChain_eq_fail hempty hpadding hfirst, round_of_failure hpadding hfirst]
      rfl
  | ok child =>
      rw [decodeChain_eq_bind hempty hpadding hfirst, round_of_header hfirst,
        Logged.result_bind]
      cases ofChild child with
      | error error => rfl
      | ok extension =>
          exact Logged.result_bind_pure (decodeChain child.rest) (extension :: ·)

theorem Parses.eq {chain : Bytes} {found : Except DecodeError (List Extension)}
    (h : Parses chain found) : (decodeChain chain).result = found := by
  induction h with
  | stop h => rw [decodeChain_round, round_of_greedy h]
  | fail h => rw [decodeChain_round, round_of_greedy h]
  | take h _ ih =>
      rw [decodeChain_round, round_of_greedy h]
      simp only [ih]

/-- Every chain has a greedy parse, since each extension takes bytes off it. -/
theorem exists_parses (chain : Bytes) : ∃ found, Parses chain found := by
  obtain ⟨found, hfound⟩ := exists_greedy chain
  cases found with
  | stop => exact ⟨_, .stop hfound⟩
  | fail error => exact ⟨_, .fail hfound⟩
  | take extension rest =>
      have hshorter := hfound.length_lt
      obtain ⟨behind, hbehind⟩ := exists_parses rest
      exact ⟨_, .take hfound hbehind⟩
termination_by chain.length

/-- Decoding a chain is the greedy parse of it. -/
theorem parses_iff {chain : Bytes} {found : Except DecodeError (List Extension)} :
    Parses chain found ↔ (decodeChain chain).result = found := by
  constructor
  · exact Parses.eq
  · intro h
    obtain ⟨other, hother⟩ := exists_parses chain
    rw [← h, hother.eq]
    exact hother

end MovieAtoms.Extension
