import MovieAtoms.Atom.Extension
import MovieAtoms.Text.Utf8

/-!
# Sample descriptions

A sample description tells how the samples of a track are coded. Descriptions of H.264 video are
decoded with their extensions; of all others only the size and the format are kept.
-/

namespace MovieAtoms

structure VideoDescription where
  size : UInt32
  format : Tag
  reserved : Block 6
  dataReferenceIndex : UInt16
  version : UInt16
  revision : UInt16
  vendor : Tag
  temporalQuality : UInt32
  spatialQuality : UInt32
  width : UInt16
  height : UInt16
  /-- Pixels per inch, in units of 1/65536. -/
  horizontalResolution : UInt32
  verticalResolution : UInt32
  dataSize : UInt32
  frameCount : UInt16
  compressorName : String
  depth : UInt16
  /-- Minus one stands for the default table. -/
  colorTableId : Int16
  extensions : List Extension
deriving DecidableEq, Repr

namespace VideoDescription

/-- The size of a description without extensions, header included. -/
def leastSize : Nat := 86

/-- The bytes of a compressor name with its length in front. -/
def nameWidth : Nat := 32

/-- The text behind a length byte. The length is cut down to what the field can hold. -/
def countedText (field : Bytes) : String :=
  match field with
  | [] => ""
  | length :: text => Text.Utf8.decodeLossy (text.take length.toNat)

def fields (header : Header) : Field VideoDescription := do
  return {
    size := header.size
    format := header.tag
    reserved := ← Field.block 6
    dataReferenceIndex := ← Field.u16
    version := ← Field.u16
    revision := ← Field.u16
    vendor := ← Tag.field
    temporalQuality := ← Field.u32
    spatialQuality := ← Field.u32
    width := ← Field.u16
    height := ← Field.u16
    horizontalResolution := ← Field.u32
    verticalResolution := ← Field.u32
    dataSize := ← Field.u32
    frameCount := ← Field.u16
    compressorName := countedText (← Field.bytes nameWidth)
    depth := ← Field.u16
    colorTableId := ← Field.i16
    extensions := [] }

/-- The written form of the fixed fields, given that of the compressor name. -/
def fixedBytes (video : VideoDescription) (name : Block nameWidth) : Bytes :=
  video.reserved.bytes ++ Wire.ofUInt16 video.dataReferenceIndex ++
    Wire.ofUInt16 video.version ++ Wire.ofUInt16 video.revision ++ video.vendor.toBytes ++
    Wire.ofUInt32 video.temporalQuality ++ Wire.ofUInt32 video.spatialQuality ++
    Wire.ofUInt16 video.width ++ Wire.ofUInt16 video.height ++
    Wire.ofUInt32 video.horizontalResolution ++ Wire.ofUInt32 video.verticalResolution ++
    Wire.ofUInt32 video.dataSize ++ Wire.ofUInt16 video.frameCount ++ name.bytes ++
    Wire.ofUInt16 video.depth ++ Wire.ofInt16 video.colorTableId

theorem length_fixedBytes (video : VideoDescription) (name : Block nameWidth) :
    Header.width + (video.fixedBytes name).length = leastSize := by
  simp [fixedBytes, Wire.ofUInt16, Wire.ofUInt32, Wire.ofInt16, video.reserved.length_bytes,
    name.length_bytes, Header.width, nameWidth, leastSize]

theorem fields_eq_some {header : Header} {video : VideoDescription} {bytes rest : Bytes} :
    fields header bytes = some (video, rest) ↔
      (video.size = header.size ∧ video.format = header.tag ∧ video.extensions = []) ∧
        ∃ name : Block nameWidth, countedText name.bytes = video.compressorName ∧
          bytes = video.fixedBytes name ++ rest := by
  obtain ⟨size, format, reserved, dataReferenceIndex, version, revision, vendor, temporalQuality,
    spatialQuality, width, height, horizontalResolution, verticalResolution, dataSize, frameCount,
    compressorName, depth, colorTableId, extensions⟩ := video
  simp only [fields, Field.bind_eq_some_inner, Field.pure_eq_some, Field.block_eq_some,
    Field.u16_eq_some, Tag.field_eq_some, Field.u32_eq_some, Field.i16_eq_some, mk.injEq,
    and_assoc, exists_and_left, exists_eq_left, Field.exists_left_eq, fixedBytes,
    List.append_assoc]
  constructor
  · rintro ⟨hsize, hformat, _, ⟨text, hname, hnone, htext⟩, hbytes⟩
    obtain ⟨rfl, hlength⟩ := Field.bytes_eq_some.mp htext
    exact ⟨hsize.symm, hformat.symm, hnone.symm, ⟨text, hlength⟩, hname, hbytes⟩
  · rintro ⟨hsize, hformat, hnone, name, hname, hbytes⟩
    refine ⟨hsize.symm, hformat.symm, _, ⟨name.bytes, hname, hnone.symm, ?_⟩, hbytes⟩
    exact Field.bytes_eq_some.mpr ⟨rfl, name.length_bytes⟩

def decode (header : Header) (body : Bytes) : Logged VideoDescription := do
  let (video, chain) ← Logged.ofExcept (Payload.fixedFields header.tag (fields header) body)
  let extensions ← Extension.decodeChain chain
  return { video with extensions }

def color? (video : VideoDescription) : Option ColorInfo :=
  video.extensions.findSome? fun
    | .colorInfo color => some color
    | _ => none

def avcConfig? (video : VideoDescription) : Option AvcConfig :=
  video.extensions.findSome? fun
    | .avcConfig config => some config
    | _ => none

def horizontalPixelsPerInch (video : VideoDescription) : Float :=
  video.horizontalResolution.toFloat / 65536

def verticalPixelsPerInch (video : VideoDescription) : Float :=
  video.verticalResolution.toFloat / 65536

end VideoDescription

/-- How the samples of a track are coded. -/
inductive SampleDescription where
  | video (description : VideoDescription)
  /-- A format whose description is passed over. -/
  | unsupported (size : UInt32) (format : Tag)
deriving DecidableEq, Repr

namespace SampleDescription

def size : SampleDescription → UInt32
  | .video description => description.size
  | .unsupported size _ => size

def format : SampleDescription → Tag
  | .video description => description.format
  | .unsupported _ format => format

def video? : SampleDescription → Option VideoDescription
  | .video description => some description
  | .unsupported .. => none

def ofChild (child : Child) : Logged SampleDescription := do
  let header := child.header
  if header.tag = Tag.avcVideo then
    if header.size.toNat < VideoDescription.leastSize then
      Logged.fail (.layout (.entryTooSmall header.tag header.size.toNat VideoDescription.leastSize))
    else return .video (← VideoDescription.decode header child.body)
  else
    if header.tag = Tag.littleEndianSound then Logged.report (.keepingSound header.size)
    else Logged.report (.skippingDescription header.tag header.size)
    return .unsupported header.size header.tag

end SampleDescription

end MovieAtoms
