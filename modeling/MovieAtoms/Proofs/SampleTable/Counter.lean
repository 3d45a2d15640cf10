import Mathlib.Logic.Relation
import MovieAtoms.Proofs.SampleTable.Greedy

/-!
# The bytes that a chain of extensions has left

A loop over a chain keeps a cursor into it and, apart from the cursor, a number of 32 bits that
counts down by the size of every extension. `Cursor.run` is this loop: it compares sizes to the
counter, cuts bodies off at the cursor, and subtracts as machine arithmetic does, modulo 2^32. Main
statement: `decodeChain_counted`. For every chain of fewer than 2^32 bytes the loop is the decoder,
the counter is the number of unread bytes at every cursor that the loop reaches, and each round there
follows the rules of a greedy parse; so the subtraction never wraps around and no body is cut short.
-/

namespace MovieAtoms

namespace Extension

/-- Where the loop over a chain stands. -/
structure Cursor where
  /-- The counter. -/
  left : UInt32
  unread : Bytes

namespace Cursor

/-- In front of a chain. The counter holds as much of the length as fits. -/
def start (chain : Bytes) : Cursor := ⟨UInt32.ofNat chain.length, chain⟩

/-- The next bytes, which belong to an atom of the given tag. -/
def splitOff (tag : Tag) (count : Nat) : Bytes → Except DecodeError (Bytes × Bytes) :=
  Payload.fixedFields tag (Field.bytes count)

/-- The header at the cursor. -/
def nextHeader (cursor : Cursor) : Except DecodeError (Header × Bytes) := do
  let (header, rest) ← Payload.fixedFields Tag.avcVideo Header.field cursor.unread
  return (← header.checked, rest)

/-- The extension at the cursor, and the cursor behind it. -/
def take (cursor : Cursor) : Except DecodeError (Extension × Cursor) := do
  let (header, behind) ← cursor.nextHeader
  if cursor.left < header.size then
    throw (.layout (.extensionOverrun header.tag header.size.toNat cursor.left.toNat))
  let (body, rest) ← splitOff header.tag header.payloadLength behind
  let extension ← ofChild ⟨header, body, rest⟩
  return (extension, ⟨cursor.left - header.size, rest⟩)

/-- The counter is the number of unread bytes. -/
def Counts (cursor : Cursor) : Prop := cursor.left.toNat = cursor.unread.length

variable {cursor next : Cursor} {extension : Extension} {header : Header} {behind : Bytes}

theorem counts_start {chain : Bytes} (h : chain.length < UInt32.size) : (start chain).Counts :=
  UInt32.toNat_ofNat_of_lt h

/-! ### Taking one extension -/

theorem nextHeader_of_short (hshort : cursor.unread.length < Header.width) :
    cursor.nextHeader = .error (.layout (.truncated Tag.avcVideo)) := by
  rw [nextHeader, Payload.fixedFields_of_short Header.takes_field hshort]
  rfl

theorem nextHeader_of_toBytes (hunread : cursor.unread = header.toBytes ++ behind) :
    cursor.nextHeader = header.checked.map fun header => (header, behind) := by
  rw [nextHeader, Payload.fixedFields_eq_ok.mpr (Header.field_eq_some.mpr hunread)]
  change (header.checked >>= fun header => pure (header, behind)) = _
  cases header.checked <;> rfl

theorem nextHeader_eq_ok :
    cursor.nextHeader = .ok (header, behind) ↔
      cursor.unread = header.toBytes ++ behind ∧ Header.width ≤ header.size.toNat := by
  constructor
  · intro h
    obtain ⟨⟨found, rest⟩, hfields, h⟩ := DecodeError.bind_eq_ok.mp h
    obtain ⟨_, hchecked, h⟩ := DecodeError.bind_eq_ok.mp h
    cases h
    by_cases hbad : found.size.toNat < Header.width
    · rw [Header.checked_eq_error hbad] at hchecked
      cases hchecked
    · rw [Header.checked_eq_ok (Nat.le_of_not_lt hbad)] at hchecked
      cases hchecked
      have hunread := Header.field_eq_some.mp (Payload.fixedFields_eq_ok.mp hfields)
      exact ⟨hunread, Nat.le_of_not_lt hbad⟩
  · rintro ⟨hunread, hsize⟩
    rw [nextHeader_of_toBytes hunread, Header.checked_eq_ok hsize]
    rfl

/-- What it takes to take an extension, whether the counter is right or not. -/
theorem exists_of_take (htake : cursor.take = .ok (extension, next)) :
    ∃ header body, cursor.unread = header.toBytes ++ (body ++ next.unread) ∧
      Header.width ≤ header.size.toNat ∧ header.size ≤ cursor.left ∧
      body.length = header.payloadLength ∧ ofChild ⟨header, body, next.unread⟩ = .ok extension ∧
      next.left = cursor.left - header.size := by
  obtain ⟨⟨header, behind⟩, hheader, htake⟩ := DecodeError.bind_eq_ok.mp htake
  by_cases hover : cursor.left < header.size
  · simp only [if_pos hover] at htake
    cases htake
  simp only [if_neg hover] at htake
  obtain ⟨⟨body, rest⟩, hsplit, htake⟩ := DecodeError.bind_eq_ok.mp htake
  obtain ⟨_, hchild, htake⟩ := DecodeError.bind_eq_ok.mp htake
  cases htake
  obtain ⟨rfl, hbody⟩ := Field.bytes_eq_some.mp (Payload.fixedFields_eq_ok.mp hsplit)
  obtain ⟨hunread, hsize⟩ := nextHeader_eq_ok.mp hheader
  exact ⟨header, body, hunread, hsize, UInt32.not_lt.mp hover, hbody, hchild, rfl⟩

/-- While the counter is right, the body at the cursor is there whenever the counter covers the
    size. -/
theorem splitOff_of_counts (hcounts : cursor.Counts)
    (hunread : cursor.unread = header.toBytes ++ behind) (hcovers : header.size ≤ cursor.left) :
    ∃ body rest, splitOff header.tag header.payloadLength behind = .ok (body, rest) := by
  have hinside : header.payloadLength ≤ behind.length := by
    have hlength : header.size.toNat ≤ cursor.unread.length := hcounts ▸ hcovers
    rw [hunread, List.length_append, Header.length_toBytes] at hlength
    rw [Header.payloadLength]
    omega
  obtain ⟨body, hbytes⟩ := (Field.takes_bytes header.payloadLength).enough behind hinside
  exact ⟨body, _, Payload.fixedFields_eq_ok.mpr hbytes⟩

/-- While the counter is right, taking an extension is what the decoder does. -/
theorem take_of_counts (hcounts : cursor.Counts) :
    cursor.take = match first cursor.unread with
      | .error error => .error error
      | .ok child => (ofChild child).map fun extension =>
          (extension, ⟨cursor.left - child.header.size, child.rest⟩) := by
  have hlength : cursor.left.toNat = cursor.unread.length := hcounts
  generalize hunread : cursor.unread = unread at hlength ⊢
  cases Payload.front unread with
  | short hshort =>
      rw [first, Payload.firstChild_of_short hshort, take, nextHeader_of_short (hunread ▸ hshort)]
      rfl
  | badSize hbad =>
      rw [first, Payload.firstChild_of_badSize hbad, take, nextHeader_of_toBytes hunread,
        Header.checked_eq_error hbad]
      rfl
  | @overrun header behind hsize hover =>
      -- the counter refuses the sizes that the unread bytes do not cover, and no others
      have hsmall : cursor.left < header.size := by
        rw [Header.payloadLength] at hover
        rw [UInt32.lt_iff_toNat_lt, hlength, List.length_append, Header.length_toBytes]
        omega
      rw [first, Payload.firstChild_of_overrun hsize hover, take, nextHeader_of_toBytes hunread,
        Header.checked_eq_ok hsize, ← hlength]
      simp only [Except.map, bind, Except.bind, if_pos hsmall]
      rfl
  | @whole header body rest hsize =>
      have hcovers : ¬cursor.left < header.size := by
        rw [UInt32.lt_iff_toNat_lt, hlength, List.length_append, List.length_append,
          Header.length_toBytes, hsize]
        omega
      have hbody : body.length = header.payloadLength := by
        rw [Header.payloadLength, hsize, Nat.add_sub_cancel_left]
      have hsplit : splitOff header.tag header.payloadLength (body ++ rest) = .ok (body, rest) :=
        Payload.fixedFields_eq_ok.mpr (Field.bytes_eq_some.mpr ⟨rfl, hbody⟩)
      rw [first, Payload.firstChild_of_whole hsize, take, nextHeader_of_toBytes hunread,
        Header.checked_eq_ok (hsize ▸ Nat.le_add_right _ _)]
      simp only [Except.map, bind, Except.bind, if_neg hcovers, hsplit]
      cases ofChild ⟨header, body, rest⟩ <;> rfl

/-- Taking an extension off gives the unread bytes as its written form and the rest, and takes its
    size off the counter without wrapping around. -/
theorem of_take (htake : cursor.take = .ok (extension, next)) :
    extension.WellFormed ∧ cursor.unread = extension.toBytes ++ next.unread ∧
      next.left.toNat + extension.header.size.toNat = cursor.left.toNat := by
  obtain ⟨header, body, hunread, hsize, hcovers, hbody, hchild, hleft⟩ := exists_of_take htake
  obtain ⟨rfl, rfl, hkind⟩ := ofChild_eq_ok.mp hchild
  rw [Header.payloadLength] at hbody
  refine ⟨⟨hkind, by omega⟩, by rw [toBytes, List.append_assoc, hunread], ?_⟩
  have hle := UInt32.le_iff_toNat_le.mp hcovers
  rw [hleft, UInt32.toNat_sub_of_le _ _ hcovers]
  exact Nat.sub_add_cancel hle

theorem length_lt_of_take (htake : cursor.take = .ok (extension, next)) :
    next.unread.length < cursor.unread.length := by
  obtain ⟨hwell, hunread, -⟩ := of_take htake
  rw [hunread]
  exact hwell.length_lt

theorem Counts.take (hcounts : cursor.Counts) (htake : cursor.take = .ok (extension, next)) :
    next.Counts := by
  obtain ⟨hwell, hunread, hleft⟩ := of_take htake
  have hlength := congrArg List.length hunread
  rw [List.length_append, hwell.length_toBytes, ← hcounts] at hlength
  rw [Counts]
  omega

/-! ### The loop -/

/-- The loop from a cursor on: it ends when the counter is zero or padding is left. -/
def run (cursor : Cursor) : Logged (List Extension) :=
  if cursor.left = 0 then return []
  else if Payload.isPadding cursor.unread then do
    Logged.report (.ignoringPadding cursor.left.toNat)
    return []
  else
    match _h : cursor.take with
    | .error error => Logged.fail error
    | .ok (extension, next) => do
        let others ← next.run
        return extension :: others
termination_by cursor.unread.length
decreasing_by exact length_lt_of_take _h

/-- One pass through the loop, from a cursor to the next one. -/
def Goes (cursor next : Cursor) : Prop :=
  cursor.left ≠ 0 ∧ ¬Payload.isPadding cursor.unread ∧
    ∃ extension, cursor.take = .ok (extension, next)

/-- The loop over a chain comes to a cursor. -/
abbrev Reached (chain : Bytes) : Cursor → Prop := Relation.ReflTransGen Goes (start chain)

/-- What the loop does at a cursor. -/
def round (cursor : Cursor) : Round :=
  if cursor.left = 0 ∨ Payload.isPadding cursor.unread then .stop
  else
    match cursor.take with
    | .error error => .fail error
    | .ok (extension, next) => .take extension next.unread

theorem Counts.left_eq_zero (hcounts : cursor.Counts) :
    cursor.left = 0 ↔ cursor.unread.isEmpty := by
  rw [← UInt32.toNat_inj, hcounts, List.isEmpty_iff]
  exact List.length_eq_zero_iff

theorem Counts.round (hcounts : cursor.Counts) : cursor.round = Extension.round cursor.unread := by
  by_cases hpadding : Payload.isPadding cursor.unread
  · rw [Cursor.round, Extension.round, if_pos (.inr hpadding), if_pos hpadding]
  · have hsome : ¬(cursor.left = 0 ∨ Payload.isPadding cursor.unread) := by
      rintro (hzero | hzero)
      · apply hpadding
        rw [List.isEmpty_iff.mp (hcounts.left_eq_zero.mp hzero)]
        rfl
      · exact hpadding hzero
    rw [Cursor.round, Extension.round, if_neg hsome, if_neg hpadding, take_of_counts hcounts]
    cases first cursor.unread with
    | error error => rfl
    | ok child => cases hchild : ofChild child <;> simp [Except.map, hchild]

section

variable (hsome : cursor.left ≠ 0) (hatom : ¬Payload.isPadding cursor.unread)

include hsome hatom

theorem run_eq_fail {error : DecodeError} (h : cursor.take = .error error) :
    cursor.run = Logged.fail error := by
  rw [Cursor.run, if_neg hsome, if_neg hatom]
  split
  · rename_i htake
    rw [Except.error.inj (h.symm.trans htake)]
  · rename_i htake
    cases h.symm.trans htake

theorem run_eq_bind (h : cursor.take = .ok (extension, next)) :
    cursor.run = (do
      let others ← next.run
      return extension :: others) := by
  rw [Cursor.run, if_neg hsome, if_neg hatom]
  split
  · rename_i htake
    cases h.symm.trans htake
  · rename_i htake
    cases h.symm.trans htake
    rfl

end

/-- While the counter is right, the loop is the decoder. -/
theorem Counts.run {cursor : Cursor} (hcounts : cursor.Counts) : cursor.run = decodeChain cursor.unread := by
  by_cases hempty : cursor.unread.isEmpty
  · rw [Cursor.run, decodeChain, if_pos (hcounts.left_eq_zero.mpr hempty), if_pos hempty]
  have hsome : cursor.left ≠ 0 := fun h => hempty (hcounts.left_eq_zero.mp h)
  by_cases hpadding : Payload.isPadding cursor.unread
  · rw [Cursor.run, decodeChain, if_neg hsome, if_neg hempty, if_pos hpadding, if_pos hpadding,
      hcounts]
  have htake := take_of_counts hcounts
  cases hfirst : first cursor.unread with
  | error error =>
      rw [hfirst] at htake
      rw [decodeChain_eq_fail hempty hpadding hfirst, run_eq_fail hsome hpadding htake]
  | ok child =>
      simp only [hfirst] at htake
      rw [decodeChain_eq_bind hempty hpadding hfirst]
      cases hchild : ofChild child with
      | error error =>
          simp only [hchild] at htake
          exact run_eq_fail hsome hpadding htake
      | ok extension =>
          simp only [hchild] at htake
          have hshorter := length_lt_of_take htake
          rw [run_eq_bind hsome hpadding htake, (hcounts.take htake).run]
          rfl
termination_by cursor.unread.length

/-- What holds at a cursor that the loop reaches. -/
structure Sound (cursor : Cursor) : Prop where
  counts : cursor.Counts
  greedy : ∀ found, cursor.round = found ↔ Greedy cursor.unread found
  /-- Whatever the loop takes, the subtraction does not wrap around. -/
  subtracts : ∀ extension next, cursor.take = .ok (extension, next) →
    next.left.toNat + extension.header.size.toNat = cursor.left.toNat
  /-- Once its size is compared to the counter, a body is never cut short. -/
  splits : ∀ header behind, cursor.nextHeader = .ok (header, behind) → header.size ≤ cursor.left →
    ∃ body rest, splitOff header.tag header.payloadLength behind = .ok (body, rest)

theorem Counts.sound (hcounts : cursor.Counts) : cursor.Sound where
  counts := hcounts
  greedy := by
    intro found
    rw [hcounts.round, greedy_iff]
  subtracts := by
    intro extension next htake
    exact (of_take htake).2.2
  splits := by
    intro header behind hheader hcovers
    exact splitOff_of_counts hcounts (nextHeader_eq_ok.mp hheader).1 hcovers

/-- The counter stays right from pass to pass. -/
theorem Counts.reached {chain : Bytes} (hsize : chain.length < UInt32.size)
    (h : Reached chain cursor) : cursor.Counts := by
  induction h with
  | refl => exact counts_start hsize
  | tail _ hgoes ih =>
      obtain ⟨-, -, extension, htake⟩ := hgoes
      exact ih.take htake

end Cursor

end Extension

/-! ### Chains and the descriptions that hold them -/

/-- What follows the fixed fields in the body of a video description. -/
def VideoDescription.chainIn (body : Bytes) : Bytes := body.drop (leastSize - Header.width)

/-- The fixed fields of a video description that is large enough are always there, so whatever is
    wrong with it is wrong with its chain. -/
theorem SampleDescription.ofChild_video {child : Child} (htag : child.header.tag = Tag.avcVideo)
    (hleast : VideoDescription.leastSize ≤ child.header.size.toNat)
    (hbody : child.body.length = child.header.payloadLength) :
    ∃ fixed, VideoDescription.fields child.header child.body =
        some (fixed, VideoDescription.chainIn child.body) ∧
      (ofChild child).result =
        (Extension.decodeChain (VideoDescription.chainIn child.body)).result.map
          fun extensions => .video { fixed with extensions } := by
  have henough : VideoDescription.leastSize - Header.width ≤ child.body.length := by
    rw [hbody, Header.payloadLength]
    omega
  obtain ⟨fixed, hfields⟩ : ∃ fixed, VideoDescription.fields child.header child.body =
      some (fixed, VideoDescription.chainIn child.body) :=
    (VideoDescription.takes_fields child.header).enough _ henough
  refine ⟨fixed, hfields, ?_⟩
  rw [ofChild, if_pos htag, if_neg (Nat.not_lt.mpr hleast), VideoDescription.decode,
    Payload.fixedFields_eq_ok.mpr hfields, Logged.result_bind, Logged.result_bind]
  change ((Extension.decodeChain _ >>= _).result.bind _) = _
  rw [Logged.result_bind]
  cases (Extension.decodeChain (VideoDescription.chainIn child.body)).result <;> rfl

namespace Extension

open Cursor in
/-- The loop over a chain is sound at every cursor, and what it comes to is the greedy parse of the
    chain. A video description that is large enough fails only where its chain does. -/
theorem decodeChain_counted {chain : Bytes} (hsize : chain.length < UInt32.size) :
    (start chain).run = decodeChain chain ∧
      (∀ cursor, Reached chain cursor → cursor.Sound) ∧
      (∀ found, (decodeChain chain).result = found ↔ Parses chain found) ∧
      ∀ child : Child, child.header.tag = Tag.avcVideo →
        VideoDescription.leastSize ≤ child.header.size.toNat →
        child.body.length = child.header.payloadLength →
        ∃ fixed, VideoDescription.fields child.header child.body =
            some (fixed, VideoDescription.chainIn child.body) ∧
          (SampleDescription.ofChild child).result =
            (decodeChain (VideoDescription.chainIn child.body)).result.map
              fun extensions => .video { fixed with extensions } := by
  refine ⟨(counts_start hsize).run, ?_, fun _ => parses_iff.symm, ?_⟩
  · intro cursor hreached
    exact (Counts.reached hsize hreached).sound
  · intro child htag hleast hbody
    exact SampleDescription.ofChild_video htag hleast hbody

/-- A whole extension in front of one that is cut off. -/
def cutChain : Bytes :=
  (Header.mk 9 (Tag.spelled 'f' 'r' 'e' 'e')).toBytes ++ [7] ++
    ((Header.mk 40 Tag.avcConfig).toBytes ++ [1, 2])

/-- A video description with this chain behind its fixed fields. -/
def cutVideo : Child :=
  ⟨⟨105, Tag.avcVideo⟩, List.replicate 78 0 ++ cutChain, []⟩

theorem decodeChain_counted_cutChain :
    cutChain.length < UInt32.size ∧
      (decodeChain cutChain).result =
        .error (.layout (.extensionOverrun Tag.avcConfig 40 10)) ∧
      (SampleDescription.ofChild cutVideo).result =
        .error (.layout (.extensionOverrun Tag.avcConfig 40 10)) := by
  have hsize : cutChain.length < UInt32.size := by decide
  obtain ⟨-, -, hparses, hvideo⟩ := decodeChain_counted hsize
  let free : Extension := .raw ⟨⟨9, Tag.spelled 'f' 'r' 'e' 'e'⟩, [7]⟩
  have hfree : free.WellFormed := ⟨⟨by decide, by decide⟩, rfl⟩
  have hover : Greedy ((Header.mk 40 Tag.avcConfig).toBytes ++ [1, 2])
      (.fail (.layout (.extensionOverrun Tag.avcConfig 40 10))) :=
    .overrun (by decide) (by decide)
  have hchain : (decodeChain cutChain).result =
      .error (.layout (.extensionOverrun Tag.avcConfig 40 10)) :=
    (hparses _).mpr (Parses.take (.extension hfree) (.fail hover) :)
  obtain ⟨fixed, -, hresult⟩ := hvideo cutVideo rfl (by decide) (by decide)
  have hbehind : VideoDescription.chainIn cutVideo.body = cutChain := by decide
  refine ⟨hsize, hchain, ?_⟩
  rw [hresult, hbehind, hchain]
  rfl

end Extension

end MovieAtoms
