import Mathlib.Data.List.Forall2
import MovieAtoms.Atom.SampleTable
import MovieAtoms.Proofs.SampleTable.Chain

/-!
# Which sample tables are accepted

A written form of a record is one that decoding takes for that record. `VideoDescription.WrittenAs`,
`SampleDescription.WrittenAs` and `SampleTable.WrittenAs` say what these forms are, level by level,
without reference to decoders: the fixed fields in order, then the parts that the record holds, one
after the other, then fewer zero bytes than a header has. Main statement:
`SampleTable.decode_result_eq_ok`, by which decoding a payload comes to a table just when the
payload is one of the table's written forms.
-/

namespace MovieAtoms

/-! ### Video descriptions -/

namespace VideoDescription

/-- The bodies that a video description may have behind its header. -/
def WrittenAs (video : VideoDescription) (body : Bytes) : Prop :=
  (∀ extension ∈ video.extensions, extension.WellFormed) ∧
    ∃ name : Block nameWidth, countedText name.bytes = video.compressorName ∧
      ∃ padding < Header.width,
        body = video.fixedBytes name ++ Extension.chainBytes video.extensions padding

theorem WrittenAs.leastSize_le {video : VideoDescription} {body : Bytes}
    (h : video.WrittenAs body) : leastSize ≤ Header.width + body.length := by
  obtain ⟨-, name, -, padding, -, hbody⟩ := h
  rw [hbody, List.length_append, ← Nat.add_assoc, length_fixedBytes]
  exact Nat.le_add_right _ _

theorem decode_result_eq_ok {header : Header} {body : Bytes} {video : VideoDescription} :
    (decode header body).result = .ok video ↔
      video.size = header.size ∧ video.format = header.tag ∧ video.WrittenAs body := by
  rw [decode, Logged.bind_result_eq_ok]
  constructor
  · rintro ⟨⟨fixed, chain⟩, hfixed, h⟩
    obtain ⟨extensions, hchain, hvideo⟩ := Logged.bind_result_eq_ok.mp h
    obtain ⟨⟨hsize, hformat, -⟩, name, hname, hbody⟩ :=
      fields_eq_some.mp (Payload.fixedFields_eq_ok.mp hfixed)
    obtain ⟨hwell, padding, hshort, rfl⟩ := Extension.decodeChain_result_eq_ok.mp hchain
    cases hvideo
    exact ⟨hsize, hformat, hwell, name, hname, padding, hshort, hbody⟩
  · rintro ⟨hsize, hformat, hwell, name, hname, padding, hshort, hbody⟩
    let fixed : VideoDescription := { video with extensions := [] }
    have hfields : fields header body =
        some (fixed, Extension.chainBytes video.extensions padding) :=
      fields_eq_some.mpr ⟨⟨hsize, hformat, rfl⟩, name, hname, hbody⟩
    refine ⟨(fixed, Extension.chainBytes video.extensions padding),
      Payload.fixedFields_eq_ok.mpr hfields, ?_⟩
    exact Logged.bind_result_eq_ok.mpr
      ⟨video.extensions, Extension.decodeChain_chainBytes hwell hshort, rfl⟩

end VideoDescription

/-! ### Sample descriptions -/

namespace SampleDescription

/-- The bodies that a sample description may have behind its header. Those of formats that are not
    decoded may be anything. -/
def BodyFits : SampleDescription → Bytes → Prop
  | .video description, body => description.format = Tag.avcVideo ∧ description.WrittenAs body
  | .unsupported _ format, _ => format ≠ Tag.avcVideo

def header (entry : SampleDescription) : Header := ⟨entry.size, entry.format⟩

/-- A written form of a sample description: its header, and a body of the size that is stated. -/
def WrittenAs (entry : SampleDescription) (bytes : Bytes) : Prop :=
  ∃ body, bytes = entry.header.toBytes ++ body ∧
    entry.size.toNat = Header.width + body.length ∧ entry.BodyFits body

variable {entry : SampleDescription} {bytes payload : Bytes} {child : Child}

theorem WrittenAs.length_eq (h : entry.WrittenAs bytes) : bytes.length = entry.size.toNat := by
  obtain ⟨body, rfl, hsize, -⟩ := h
  rw [List.length_append, Header.length_toBytes, hsize]

theorem WrittenAs.width_le_size (h : entry.WrittenAs bytes) :
    Header.width ≤ entry.size.toNat := by
  obtain ⟨body, rfl, hsize, -⟩ := h
  rw [hsize]
  exact Nat.le_add_right _ _

theorem ofChild_result_eq_ok
    (hsize : child.header.size.toNat = Header.width + child.body.length) :
    (ofChild child).result = .ok entry ↔
      entry.header = child.header ∧ entry.BodyFits child.body := by
  constructor
  · intro h
    simp only [ofChild] at h
    split at h
    · rename_i htag
      split at h
      · cases h
      · obtain ⟨description, hdecode, hentry⟩ := Logged.bind_result_eq_ok.mp h
        cases hentry
        obtain ⟨hstated, hformat, hwritten⟩ := VideoDescription.decode_result_eq_ok.mp hdecode
        exact ⟨congrArg₂ Header.mk hstated hformat, hformat.trans htag, hwritten⟩
    · rename_i htag
      split at h <;>
      · cases h
        exact ⟨rfl, htag⟩
  · rintro ⟨hheader, hbody⟩
    simp only [ofChild]
    rw [← hheader] at hsize ⊢
    cases entry with
    | video description =>
        obtain ⟨hformat, hwritten⟩ := hbody
        have hleast : ¬(header (.video description)).size.toNat < VideoDescription.leastSize := by
          rw [hsize]
          exact Nat.not_lt.mpr hwritten.leastSize_le
        have hdecode : (VideoDescription.decode (header (.video description)) child.body).result =
            .ok description :=
          VideoDescription.decode_result_eq_ok.mpr ⟨rfl, rfl, hwritten⟩
        rw [if_pos (show (header (.video description)).tag = Tag.avcVideo from hformat),
          if_neg hleast]
        exact Logged.bind_result_eq_ok.mpr ⟨description, hdecode, rfl⟩
    | unsupported size format =>
        rw [if_neg (show (header (.unsupported size format)).tag ≠ Tag.avcVideo from hbody)]
        split <;> rfl

end SampleDescription

/-! ### Sample tables -/

namespace SampleTable

/-- The payloads that a sample table may have. -/
def WrittenAs (table : SampleTable) (payload : Bytes) : Prop :=
  ∃ declared : UInt32, declared.toNat = table.entries.length ∧
    ∃ pieces, List.Forall₂ SampleDescription.WrittenAs table.entries pieces ∧
      ∃ padding < Header.width,
        payload = Wire.ofUInt8 table.version ++ (table.flags.bytes ++ (Wire.ofUInt32 declared ++
          (pieces.flatten ++ List.replicate padding 0)))

variable {entry : SampleDescription} {entries : List SampleDescription} {pieces : List Bytes}
  {payload rest : Bytes}

theorem exists_writtenAs {child : Child} (hfirst : firstEntry payload = .ok child)
    (hentry : (SampleDescription.ofChild child).result = .ok entry) :
    ∃ piece, entry.WrittenAs piece ∧ payload = piece ++ child.rest := by
  obtain ⟨hpayload, hcovers, hbody⟩ := Payload.firstChild_eq_ok.mp hfirst
  have hsize : child.header.size.toNat = Header.width + child.body.length := by
    rw [hbody, Header.payloadLength]
    omega
  obtain ⟨hheader, hfits⟩ := (SampleDescription.ofChild_result_eq_ok hsize).mp hentry
  refine ⟨entry.header.toBytes ++ child.body, ⟨child.body, rfl, ?_, hfits⟩, ?_⟩
  · rw [← hsize, ← hheader]
    rfl
  · rw [hheader, List.append_assoc]
    exact hpayload

theorem exists_firstEntry {piece : Bytes} (h : entry.WrittenAs piece) (rest : Bytes) :
    ∃ child, firstEntry (piece ++ rest) = .ok child ∧
      (SampleDescription.ofChild child).result = .ok entry ∧ child.rest = rest := by
  obtain ⟨body, rfl, hsize, hfits⟩ := h
  have hlength : body.length = entry.header.payloadLength := by
    rw [Header.payloadLength, SampleDescription.header, hsize, Nat.add_sub_cancel_left]
  refine ⟨⟨entry.header, body, rest⟩, ?_, ?_, rfl⟩
  · refine Payload.firstChild_eq_ok.mpr ⟨List.append_assoc .., ?_, hlength⟩
    exact hsize ▸ Nat.le_add_right _ _
  · exact (SampleDescription.ofChild_result_eq_ok hsize).mpr ⟨rfl, hfits⟩

theorem decodeEntries_result_eq_ok {count : Nat} :
    (decodeEntries count payload).result = .ok (entries, rest) ↔
      entries.length = count ∧
        ∃ pieces, List.Forall₂ SampleDescription.WrittenAs entries pieces ∧
          payload = pieces.flatten ++ rest := by
  induction count generalizing payload entries with
  | zero =>
      rw [decodeEntries, Logged.pure_result_eq_ok, Prod.mk.injEq]
      constructor
      · rintro ⟨rfl, rfl⟩
        exact ⟨rfl, [], .nil, rfl⟩
      · rintro ⟨hcount, pieces, hpieces, rfl⟩
        obtain rfl := List.eq_nil_of_length_eq_zero hcount
        cases hpieces
        exact ⟨rfl, rfl⟩
  | succ count ih =>
      rw [decodeEntries, Logged.bind_result_eq_ok]
      constructor
      · rintro ⟨child, hfirst, h⟩
        obtain ⟨entry, hentry, h⟩ := Logged.bind_result_eq_ok.mp h
        obtain ⟨⟨others, behind⟩, hothers, h⟩ := Logged.bind_result_eq_ok.mp h
        cases h
        obtain ⟨piece, hpiece, rfl⟩ := exists_writtenAs hfirst hentry
        obtain ⟨hcount, pieces, hpieces, hrest⟩ := ih.mp hothers
        refine ⟨congrArg Nat.succ hcount, piece :: pieces, .cons hpiece hpieces, ?_⟩
        rw [hrest, List.flatten_cons, List.append_assoc]
      · rintro ⟨hcount, pieces, hpieces, rfl⟩
        cases hpieces with
        | nil => cases hcount
        | @cons entry piece others pieces hpiece hpieces =>
            rw [List.flatten_cons, List.append_assoc]
            obtain ⟨child, hfirst, hentry, hrest⟩ :=
              exists_firstEntry hpiece (pieces.flatten ++ rest)
            have hothers := ih.mpr ⟨Nat.succ.inj hcount, pieces, hpieces, hrest⟩
            refine ⟨child, hfirst, Logged.bind_result_eq_ok.mpr ⟨entry, hentry, ?_⟩⟩
            exact Logged.bind_result_eq_ok.mpr ⟨(others, rest), hothers, rfl⟩

theorem exists_eq_flatten (h : (decodeToEnd payload).result = .ok entries) :
    ∃ pieces, List.Forall₂ SampleDescription.WrittenAs entries pieces ∧
      ∃ padding < Header.width, payload = pieces.flatten ++ List.replicate padding 0 := by
  induction payload using decodeToEnd.induct generalizing entries with
  | case1 payload hpadding =>
      rw [decodeToEnd, if_pos hpadding] at h
      cases h
      exact ⟨[], .nil, Payload.isPadding_eq_true.mp hpadding⟩
  | case2 payload hatom error hfirst =>
      rw [decodeToEnd_eq_fail hatom hfirst] at h
      cases h
  | case3 payload hatom child hfirst ih =>
      rw [decodeToEnd_eq_bind hatom hfirst] at h
      obtain ⟨entry, hentry, h⟩ := Logged.bind_result_eq_ok.mp h
      obtain ⟨others, hothers, h⟩ := Logged.bind_result_eq_ok.mp h
      cases h
      obtain ⟨piece, hpiece, rfl⟩ := exists_writtenAs hfirst hentry
      obtain ⟨pieces, hpieces, padding, hshort, hrest⟩ := ih hothers
      refine ⟨piece :: pieces, .cons hpiece hpieces, padding, hshort, ?_⟩
      rw [hrest, List.flatten_cons, List.append_assoc]

theorem decodeToEnd_padding {padding : Nat} (h : padding < Header.width) :
    (decodeToEnd (List.replicate padding 0)).result = .ok [] := by
  rw [decodeToEnd, if_pos (Payload.isPadding_eq_true.mpr ⟨padding, h, rfl⟩)]
  rfl

theorem width_mul_length_le (h : List.Forall₂ SampleDescription.WrittenAs entries pieces) :
    Header.width * entries.length ≤ pieces.flatten.length := by
  induction h with
  | nil => exact Nat.le_refl _
  | @cons entry piece others pieces hpiece _ ih =>
      have hwidth := hpiece.width_le_size
      rw [List.flatten_cons, List.length_append, hpiece.length_eq, List.length_cons, Nat.mul_succ]
      omega

theorem fixedFields_eq_some {version : UInt8} {flags : Block 3} {declared : UInt32} :
    fixedFields payload = some ((version, flags, declared), rest) ↔
      payload = Wire.ofUInt8 version ++ (flags.bytes ++ (Wire.ofUInt32 declared ++ rest)) := by
  simp only [fixedFields, Field.bind_eq_some_inner, Field.pure_eq_some, Field.u8_eq_some,
    Field.block_eq_some, Field.u32_eq_some, Prod.mk.injEq, and_assoc, exists_and_left,
    exists_eq_left]

/-- Decoding accepts exactly the written forms. The entries past the declared ones are decoded as
    well, but only where there are none the table is accepted. -/
theorem decode_result_eq_ok {header : Header} {table : SampleTable} :
    (decode header payload).result = .ok table ↔
      table.header = header ∧ table.WrittenAs payload := by
  rw [decode, Logged.bind_result_eq_ok]
  constructor
  · rintro ⟨⟨⟨version, flags, declared⟩, entries⟩, hfixed, h⟩
    have hpayload := fixedFields_eq_some.mp (Payload.fixedFields_eq_ok.mp hfixed)
    simp only at h
    split at h
    · cases h
    · obtain ⟨⟨asDeclared, rest⟩, hdeclared, h⟩ := Logged.bind_result_eq_ok.mp h
      obtain ⟨others, hothers, h⟩ := Logged.bind_result_eq_ok.mp h
      split at h
      · rename_i hcount
        cases h
        -- the pieces of both runs together, since only their number tells that the second is empty
        obtain ⟨-, pieces, hpieces, rfl⟩ := decodeEntries_result_eq_ok.mp hdeclared
        obtain ⟨more, hmore, padding, hshort, rfl⟩ := exists_eq_flatten hothers
        refine ⟨rfl, declared, hcount.symm, pieces ++ more, ?_, padding, hshort, ?_⟩
        · exact List.rel_append hpieces hmore
        · rw [hpayload, List.flatten_append, List.append_assoc]
      · cases h
  · rintro ⟨rfl, declared, hdeclared, pieces, hpieces, padding, hshort, hpayload⟩
    have hfixed := fixedFields_eq_some.mpr hpayload
    -- every entry has a header, so as many as are declared leave room for them
    have hroom : ¬(pieces.flatten ++ List.replicate padding (0 : UInt8)).length / Header.width <
        declared.toNat := by
      have hlength := width_mul_length_le hpieces
      rw [List.length_append, hdeclared]
      rw [Header.width] at hlength ⊢
      omega
    have hentries : (decodeEntries declared.toNat
        (pieces.flatten ++ List.replicate padding 0)).result =
          .ok (table.entries, List.replicate padding 0) :=
      decodeEntries_result_eq_ok.mpr ⟨hdeclared.symm, pieces, hpieces, rfl⟩
    refine ⟨_, Payload.fixedFields_eq_ok.mpr hfixed, ?_⟩
    simp only [if_neg hroom]
    refine Logged.bind_result_eq_ok.mpr ⟨(table.entries, List.replicate padding 0), hentries, ?_⟩
    refine Logged.bind_result_eq_ok.mpr ⟨[], decodeToEnd_padding hshort, ?_⟩
    simp only [List.append_nil, if_pos hdeclared.symm]
    rfl

end SampleTable

end MovieAtoms
