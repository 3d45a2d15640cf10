import MovieAtoms.Proofs.SampleTable.Entries
import MovieAtoms.Proofs.Text.Utf8
import MovieAtoms.Proofs.Walk.Capture
import MovieAtoms.Proofs.Walk.Forest

/-!
# Sample tables are read as they were drafted

A draft holds what the writer of a sample table is free to choose: the values of all fields, the
bodies of formats that are not decoded, what fills up the field of a compressor name, and the
padding. Sizes are no part of it, since they follow from what is written. Every draft has a written
form, an atom like any other (`node`), and a record that states the sizes of this form (`record`).
Main statement: `sampleTable_draft`, by which decoding the written form gives the record, as long as
the sizes fit in four bytes.
-/

namespace MovieAtoms

/-! ### Drafts -/

/-- An extension that is to be written. -/
inductive Extension.Draft where
  | colorInfo (parameterType : Tag)
      (primariesIndex transferFunctionIndex matrixIndex : UInt16) (trailing : Bytes)
  | avcConfig (record : Bytes)
  | raw (tag : Tag) (payload : Bytes) (not_colorInfo : tag ≠ Tag.colorInfo)
      (not_avcConfig : tag ≠ Tag.avcConfig)

namespace Extension.Draft

def node : Extension.Draft → Node
  | .colorInfo parameterType primaries transferFunction matrix trailing =>
      .leaf Tag.colorInfo (parameterType.toBytes ++ Wire.ofUInt16 primaries ++
        Wire.ofUInt16 transferFunction ++ Wire.ofUInt16 matrix ++ trailing)
  | .avcConfig record => .leaf Tag.avcConfig record
  | .raw tag payload .. => .leaf tag payload

def record (draft : Extension.Draft) : Extension :=
  match draft with
  | .colorInfo parameterType primaries transferFunction matrix trailing =>
      .colorInfo ⟨draft.node.header, parameterType, primaries, transferFunction, matrix, trailing⟩
  | .avcConfig record => .avcConfig ⟨draft.node.header, record⟩
  | .raw _ payload .. => .raw ⟨draft.node.header, payload⟩

end Extension.Draft

/-- A video description that is to be written. -/
structure VideoDescription.Draft where
  reserved : Block 6
  dataReferenceIndex : UInt16
  version : UInt16
  revision : UInt16
  vendor : Tag
  temporalQuality : UInt32
  spatialQuality : UInt32
  width : UInt16
  height : UInt16
  horizontalResolution : UInt32
  verticalResolution : UInt32
  dataSize : UInt32
  frameCount : UInt16
  compressorName : String
  /-- What stands behind the compressor name in its field. -/
  filler : Bytes
  name_fits : 1 + compressorName.utf8ByteSize + filler.length = VideoDescription.nameWidth
  depth : UInt16
  colorTableId : Int16
  extensions : List Extension.Draft
  /-- The zero bytes behind the extensions. -/
  padding : Fin Header.width

namespace VideoDescription.Draft

/-- The compressor name behind a byte with its length, and what fills up the field. -/
def nameField (draft : VideoDescription.Draft) : Block VideoDescription.nameWidth where
  bytes := UInt8.ofNat draft.compressorName.utf8ByteSize ::
    (Text.Utf8.encode draft.compressorName ++ draft.filler)
  length_bytes := by
    rw [List.length_cons, List.length_append, Text.Utf8.length_encode, ← draft.name_fits]
    omega

/-- The record, given the size that it states. -/
def sized (draft : VideoDescription.Draft) (size : UInt32) : VideoDescription where
  size
  format := Tag.avcVideo
  reserved := draft.reserved
  dataReferenceIndex := draft.dataReferenceIndex
  version := draft.version
  revision := draft.revision
  vendor := draft.vendor
  temporalQuality := draft.temporalQuality
  spatialQuality := draft.spatialQuality
  width := draft.width
  height := draft.height
  horizontalResolution := draft.horizontalResolution
  verticalResolution := draft.verticalResolution
  dataSize := draft.dataSize
  frameCount := draft.frameCount
  compressorName := draft.compressorName
  depth := draft.depth
  colorTableId := draft.colorTableId
  extensions := draft.extensions.map Extension.Draft.record

def node (draft : VideoDescription.Draft) : Node :=
  -- the size stands in the header, so that the fixed fields are the same for every size
  .leaf Tag.avcVideo ((draft.sized 0).fixedBytes draft.nameField ++
    (Forest.bytes (draft.extensions.map Extension.Draft.node) ++
      List.replicate draft.padding 0))

def record (draft : VideoDescription.Draft) : VideoDescription :=
  draft.sized draft.node.header.size

end VideoDescription.Draft

/-- A sample description that is to be written. -/
inductive SampleDescription.Draft where
  | video (description : VideoDescription.Draft)
  | unsupported (format : Tag) (body : Bytes) (not_avcVideo : format ≠ Tag.avcVideo)

namespace SampleDescription.Draft

def node : SampleDescription.Draft → Node
  | .video description => description.node
  | .unsupported format body _ => .leaf format body

def record (draft : SampleDescription.Draft) : SampleDescription :=
  match draft with
  | .video description => .video description.record
  | .unsupported format .. => .unsupported draft.node.header.size format

end SampleDescription.Draft

/-- A sample table that is to be written. -/
structure SampleTable.Draft where
  version : UInt8
  flags : Block 3
  entries : List SampleDescription.Draft
  /-- The zero bytes behind the last entry. -/
  padding : Fin Header.width

namespace SampleTable.Draft

def payload (draft : SampleTable.Draft) : Bytes :=
  Wire.ofUInt8 draft.version ++ (draft.flags.bytes ++
    (Wire.bigEndian 4 draft.entries.length ++
      (Forest.bytes (draft.entries.map SampleDescription.Draft.node) ++
        List.replicate draft.padding 0)))

def node (draft : SampleTable.Draft) : Node := .leaf Tag.sampleTable draft.payload

def record (draft : SampleTable.Draft) : SampleTable where
  header := draft.node.header
  version := draft.version
  flags := draft.flags
  entries := draft.entries.map SampleDescription.Draft.record

/-- The size of the written form, and so that of every atom inside it, fits in four bytes. -/
def Fits (draft : SampleTable.Draft) : Prop :=
  Header.width + draft.payload.length < UInt32.size

end SampleTable.Draft

/-! ### Written forms of drafts -/

namespace Forest

variable {forest : List Node} {payload : Bytes}

theorem bytes_eq_flatten (forest : List Node) :
    bytes forest = (forest.map fun node => atomBytes node.tag node.payload).flatten := by
  induction forest with
  | nil => rfl
  | cons node others ih => rw [bytes, ih, List.map_cons, List.flatten_cons]

theorem fits_of_length_le (hle : (bytes forest).length ≤ payload.length)
    (h : Header.width + payload.length < UInt32.size) : Fits forest := by
  intro node hnode
  have hnode := length_payload_le hnode
  omega

end Forest

namespace Extension.Draft

variable {draft : Extension.Draft} {drafts : List Extension.Draft}

theorem header_record (draft : Extension.Draft) : draft.record.header = draft.node.header := by
  cases draft <;> rfl

theorem body_record (draft : Extension.Draft) : draft.record.body = draft.node.payload := by
  cases draft <;> rfl

theorem kindFits_record (draft : Extension.Draft) : draft.record.KindFits := by
  cases draft with
  | colorInfo => rfl
  | avcConfig => rfl
  | raw tag payload not_colorInfo not_avcConfig => exact ⟨not_colorInfo, not_avcConfig⟩

theorem wellFormed_record (h : Header.width + draft.node.payload.length < UInt32.size) :
    draft.record.WellFormed where
  kind := draft.kindFits_record
  size := by rw [header_record, body_record, Node.size_header h]

theorem chainBytes_record (h : Forest.Fits (drafts.map node)) (padding : Nat) :
    chainBytes (drafts.map record) padding =
      Forest.bytes (drafts.map node) ++ List.replicate padding 0 := by
  induction drafts with
  | nil => rfl
  | cons draft drafts ih =>
      obtain ⟨hdraft, hdrafts⟩ := List.forall_mem_cons.mp h
      rw [List.map_cons, List.map_cons, chainBytes_cons, ih hdrafts, toBytes, header_record,
        body_record, Forest.bytes_cons hdraft, List.append_assoc, List.append_assoc,
        List.append_assoc]

end Extension.Draft

namespace VideoDescription.Draft

theorem countedText_nameField (draft : VideoDescription.Draft) :
    countedText draft.nameField.bytes = draft.compressorName := by
  have hfits := draft.name_fits
  have hcount : (UInt8.ofNat draft.compressorName.utf8ByteSize).toNat =
      (Text.Utf8.encode draft.compressorName).length := by
    rw [Text.Utf8.length_encode, UInt8.toNat_ofNat', Nat.mod_eq_of_lt]
    rw [nameWidth] at hfits
    omega
  rw [nameField, countedText, hcount, List.take_left, Text.Utf8.decodeLossy_encode]

theorem fixedBytes_sized (draft : VideoDescription.Draft) (size : UInt32)
    (name : Block nameWidth) :
    (draft.sized size).fixedBytes name = (draft.sized 0).fixedBytes name := by
  simp only [fixedBytes, sized]

theorem record_writtenAs {draft : VideoDescription.Draft}
    (h : Header.width + draft.node.payload.length < UInt32.size) :
    draft.record.WrittenAs draft.node.payload := by
  have hfits : Forest.Fits (draft.extensions.map Extension.Draft.node) := by
    refine Forest.fits_of_length_le ?_ h
    simp only [node, Node.payload, List.length_append]
    omega
  refine ⟨?_, draft.nameField, draft.countedText_nameField, draft.padding, draft.padding.isLt, ?_⟩
  · intro extension hextension
    obtain ⟨source, hsource, rfl⟩ := List.mem_map.mp hextension
    exact Extension.Draft.wellFormed_record (hfits source.node (List.mem_map_of_mem hsource))
  · have hextensions : draft.record.extensions = draft.extensions.map Extension.Draft.record := rfl
    rw [hextensions, Extension.Draft.chainBytes_record hfits, record, fixedBytes_sized, node,
      Node.payload]

end VideoDescription.Draft

namespace SampleDescription.Draft

theorem header_record (draft : SampleDescription.Draft) :
    draft.record.header = draft.node.header := by
  cases draft <;> rfl

theorem record_writtenAs {draft : SampleDescription.Draft}
    (h : Header.width + draft.node.payload.length < UInt32.size) :
    draft.record.WrittenAs (atomBytes draft.node.tag draft.node.payload) := by
  refine ⟨draft.node.payload, ?_, ?_, ?_⟩
  · rw [Node.atomBytes_eq h, header_record]
  · exact (congrArg (fun header => header.size.toNat) draft.header_record).trans
      (Node.size_header h)
  · cases draft with
    | video description => exact ⟨rfl, VideoDescription.Draft.record_writtenAs h⟩
    | unsupported format body not_avcVideo => exact not_avcVideo

end SampleDescription.Draft

namespace SampleTable.Draft

variable {draft : SampleTable.Draft}

theorem length_bytes_le (draft : SampleTable.Draft) :
    (Forest.bytes (draft.entries.map SampleDescription.Draft.node)).length ≤
      draft.payload.length := by
  simp only [payload, List.length_append]
  omega

theorem record_writtenAs (h : draft.Fits) : draft.record.WrittenAs draft.payload := by
  have hfits := Forest.fits_of_length_le draft.length_bytes_le h
  let piece (entry : SampleDescription.Draft) : Bytes :=
    atomBytes entry.node.tag entry.node.payload
  have hbytes : Forest.bytes (draft.entries.map SampleDescription.Draft.node) =
      (draft.entries.map piece).flatten := by
    rw [Forest.bytes_eq_flatten, List.map_map]
    rfl
  have hpieces : List.Forall₂ SampleDescription.WrittenAs draft.record.entries
      (draft.entries.map piece) := by
    refine List.forall₂_map_left_iff.mpr (List.forall₂_map_right_iff.mpr ?_)
    refine List.forall₂_same.mpr fun entry hentry => ?_
    exact SampleDescription.Draft.record_writtenAs (hfits entry.node (List.mem_map_of_mem hentry))
  -- the number of entries fits, since each of them takes more than one byte of the payload
  have hcount : draft.record.entries.length < UInt32.size := by
    have hlength := width_mul_length_le hpieces
    have hle := draft.length_bytes_le
    have hsize : Header.width + draft.payload.length < UInt32.size := h
    rw [← hbytes] at hlength
    rw [Header.width] at hlength hsize
    omega
  have hdeclared : (UInt32.ofNat draft.record.entries.length).toNat =
      draft.record.entries.length := UInt32.toNat_ofNat_of_lt' hcount
  refine ⟨UInt32.ofNat draft.record.entries.length, hdeclared, draft.entries.map piece, hpieces,
    draft.padding, draft.padding.isLt, ?_⟩
  rw [Wire.ofUInt32, hdeclared, ← hbytes, record, List.length_map]
  rfl

end SampleTable.Draft

/-! ### Reading drafts -/

namespace Walk

/-- A sample table comes out as it was drafted: every field, every entry and every extension in
    order, whatever fills up the fields of names and whatever padding there is. Exactly the written
    form leaves the source. -/
theorem sampleTable_draft {draft : SampleTable.Draft} (hfits : draft.Fits) (tail : Bytes)
    (ending : Ending) (schedule : Nat → Pace) :
    let source := Source.paced (draft.payload ++ tail) ending schedule
    (Walk.sampleTable draft.node.header source).1.result = .ok draft.record ∧
      (Walk.sampleTable draft.node.header source).2.rest = tail := by
  intro source
  have hlength : draft.node.payload.length = draft.node.header.payloadLength :=
    Node.payloadLength_header hfits
  have hyields : (Walk.sampleTable draft.node.header).Yields (draft.payload ++ tail) ending
      (SampleTable.decode draft.node.header draft.payload) tail := yields_captured hlength
  have hrest : source.rest = draft.payload ++ tail := rfl
  obtain ⟨hlog, hleft⟩ := hyields.eq hrest rfl
  refine ⟨?_, hleft⟩
  rw [hlog]
  exact SampleTable.decode_result_eq_ok.mpr ⟨rfl, SampleTable.Draft.record_writtenAs hfits⟩

/-- A video description with a name that is not ASCII, one extension of each kind, and padding. -/
def paddedVideo : VideoDescription.Draft where
  reserved := ⟨[0, 0, 0, 0, 0, 0], rfl⟩
  dataReferenceIndex := 1
  version := 0
  revision := 0
  vendor := Tag.spelled 'a' 'p' 'p' 'l'
  temporalQuality := 512
  spatialQuality := 1023
  width := 1920
  height := 1080
  horizontalResolution := 0x480000
  verticalResolution := 0x480000
  dataSize := 0
  frameCount := 1
  compressorName := "é264"
  filler := List.replicate 26 7
  name_fits := by decide +kernel
  depth := 24
  colorTableId := -1
  extensions := [
    .colorInfo Tag.rangedColor 9 16 9 [0x80],
    .avcConfig [1, 100, 0, 40],
    .raw (Tag.spelled 'p' 'a' 's' 'p') [0, 0, 0, 1, 0, 0, 0, 1] (by decide) (by decide)]
  padding := ⟨4, by decide⟩

/-- A sample table with an entry that is not decoded in front of one that is, and padding. -/
def paddedTable : SampleTable.Draft where
  version := 0
  flags := ⟨[0, 0, 1], rfl⟩
  entries := [
    .unsupported Tag.littleEndianSound [1, 2, 3] (by decide),
    .video paddedVideo]
  padding := ⟨7, by decide⟩

theorem fits_paddedTable : paddedTable.Fits := by
  have hlength : paddedTable.payload.length = 163 := by decide +kernel
  rw [SampleTable.Draft.Fits, hlength]
  decide

theorem sampleTable_paddedTable :
    paddedTable.Fits ∧
      (Walk.sampleTable paddedTable.node.header (Source.paced (paddedTable.payload ++ [0xFF])
          .endOfInput fun index => ⟨index % 2, index % 3⟩)).1.result = .ok paddedTable.record ∧
      paddedTable.record.entries.map SampleDescription.size = [11, 137] := by
  refine ⟨fits_paddedTable, ?_, ?_⟩
  · exact (sampleTable_draft fits_paddedTable [0xFF] .endOfInput _).1
  · decide +kernel

end Walk

end MovieAtoms
