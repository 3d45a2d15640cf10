import MovieAtoms.Atom
import MovieAtoms.Json
import MovieAtoms.Text.Hex

/-!
# Records as JSON

Records are objects with a member for each field. Tags are given as they are shown, bytes of fixed
number as lists, other bytes as hexadecimal text. Where a record is one of several kinds, its first
member names the kind.

That is what serde documents for derived records, with their fields in the order of declaration, for
arrays and sequences, and for the kinds of a type that is tagged by a member `kind`.
-/

namespace MovieAtoms

namespace Json

def ofUInt8 (value : UInt8) : Json := ofNat value.toNat

def ofUInt16 (value : UInt16) : Json := ofNat value.toNat

def ofUInt32 (value : UInt32) : Json := ofNat value.toNat

def ofTag (tag : Tag) : Json := .string tag.text

def ofBlock (block : Block size) : Json := ofList ofUInt8 block.bytes

def ofBytes (bytes : Bytes) : Json := .string (String.ofList (Text.Hex.ofBytes bytes))

def ofHeader (header : Header) : Json :=
  .object [("size", ofUInt32 header.size), ("typ", ofTag header.tag)]

/-- An object whose first member names its kind. -/
def tagged (kind : String) (members : List (String × Json)) : Json :=
  .object (("kind", .string kind) :: members)

end Json

open Json

def RawAtom.members (atom : RawAtom) : List (String × Json) := [
  ("header", ofHeader atom.header),
  ("payload", ofBytes atom.payload)]

def FileType.members (fileType : FileType) : List (String × Json) := [
  ("header", ofHeader fileType.header),
  ("major_brand", ofTag fileType.majorBrand),
  ("minor_version", ofUInt32 fileType.minorVersion),
  ("compatible_brands", ofList ofTag fileType.compatibleBrands)]

def MovieHeader.members (movie : MovieHeader) : List (String × Json) := [
  ("header", ofHeader movie.header),
  ("version", ofUInt8 movie.version),
  ("flags", ofBlock movie.flags),
  ("creation_time", ofUInt32 movie.creationTime.seconds),
  ("modification_time", ofUInt32 movie.modificationTime.seconds),
  ("time_scale", ofUInt32 movie.timeScale),
  ("duration", ofUInt32 movie.duration),
  ("rate", ofUInt32 movie.rate),
  ("volume", ofUInt16 movie.volume),
  ("reserved", ofBlock movie.reserved),
  ("matrix", ofList (fun value => .number value.toInt) movie.matrix.toList),
  ("preview_time", ofUInt32 movie.previewTime),
  ("preview_duration", ofUInt32 movie.previewDuration),
  ("poster_time", ofUInt32 movie.posterTime),
  ("selection_time", ofUInt32 movie.selectionTime),
  ("selection_duration", ofUInt32 movie.selectionDuration),
  ("current_time", ofUInt32 movie.currentTime),
  ("next_track_id", ofUInt32 movie.nextTrackId)]

def ColorInfo.members (color : ColorInfo) : List (String × Json) := [
  ("header", ofHeader color.header),
  ("parameter_type", ofTag color.parameterType),
  ("primaries_index", ofUInt16 color.primariesIndex),
  ("transfer_function_index", ofUInt16 color.transferFunctionIndex),
  ("matrix_index", ofUInt16 color.matrixIndex),
  ("trailing", ofBytes color.trailing)]

def AvcConfig.members (config : AvcConfig) : List (String × Json) := [
  ("header", ofHeader config.header),
  ("record", ofBytes config.record)]

def Extension.toJson : Extension → Json
  | .colorInfo color => tagged "color_info" color.members
  | .avcConfig config => tagged "avc_config" config.members
  | .raw atom => tagged "generic" atom.members

def VideoDescription.members (video : VideoDescription) : List (String × Json) := [
  ("size", ofUInt32 video.size),
  ("data_format", ofTag video.format),
  ("reserved", ofBlock video.reserved),
  ("data_reference_index", ofUInt16 video.dataReferenceIndex),
  ("version", ofUInt16 video.version),
  ("revision_level", ofUInt16 video.revision),
  ("vendor", ofTag video.vendor),
  ("temporal_quality", ofUInt32 video.temporalQuality),
  ("spatial_quality", ofUInt32 video.spatialQuality),
  ("width", ofUInt16 video.width),
  ("height", ofUInt16 video.height),
  ("horizontal_resolution", ofUInt32 video.horizontalResolution),
  ("vertical_resolution", ofUInt32 video.verticalResolution),
  ("data_size", ofUInt32 video.dataSize),
  ("frame_count", ofUInt16 video.frameCount),
  ("compressor_name", .string video.compressorName),
  ("depth", ofUInt16 video.depth),
  ("color_table_id", .number video.colorTableId.toInt),
  ("extensions", ofList Extension.toJson video.extensions)]

def SampleDescription.toJson : SampleDescription → Json
  | .video description => tagged "video" description.members
  | .unsupported size format =>
      tagged "unsupported" [("size", ofUInt32 size), ("data_format", ofTag format)]

def SampleTable.members (table : SampleTable) : List (String × Json) := [
  ("header", ofHeader table.header),
  ("version", ofUInt8 table.version),
  ("flags", ofBlock table.flags),
  ("entries", ofList SampleDescription.toJson table.entries)]

def Atom.toJson : Atom → Json
  | .raw atom => tagged "generic" atom.members
  | .movieHeader movie => tagged "movie_header" movie.members
  | .sampleTable table => tagged "sample_table" table.members

def FileType.toJson (fileType : FileType) : Json := .object fileType.members

end MovieAtoms
