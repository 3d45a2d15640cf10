import MovieAtoms.Atom
import MovieAtoms.Text.Hex
import MovieAtoms.Text.Quoted

/-!
# Records as text

One line for each record, and one more for each entry of a sample table.
-/

namespace MovieAtoms

def bracketed (texts : List String) : String := "[" ++ ", ".intercalate texts ++ "]"

def RawAtom.text (atom : RawAtom) : String :=
  atom.header.tag.text ++ " size=" ++ toString atom.header.size.toNat ++
    " payload=" ++ toString atom.payload.length ++ " bytes"

def FileType.text (fileType : FileType) : String :=
  "ftyp " ++ (if fileType.isMovie then "QT" else "NoQT") ++
    " major=" ++ fileType.majorBrand.text ++
    " minor=0x" ++ String.ofList (Text.Hex.capitals 8 fileType.minorVersion.toNat) ++
    " compatible=" ++ bracketed (fileType.compatibleBrands.map Tag.text)

def MovieHeader.rateText (movie : MovieHeader) : String := Decimal.fixed 2 movie.rate.toNat 65536

def MovieHeader.volumeText (movie : MovieHeader) : String := Decimal.fixed 2 movie.volume.toNat 256

def MovieHeader.text (movie : MovieHeader) : String :=
  "mvhd created=" ++ movie.creationTime.text ++
    " modified=" ++ movie.modificationTime.text ++
    " timescale=" ++ toString movie.timeScale.toNat ++
    " duration=" ++ toString movie.duration.toNat ++
    " rate=" ++ movie.rateText ++
    " volume=" ++ movie.volumeText ++
    " next_track_id=" ++ toString movie.nextTrackId.toNat

def VideoDescription.text (video : VideoDescription) : String :=
  video.format.text ++ " " ++ toString video.width.toNat ++ "x" ++ toString video.height.toNat ++
    " depth=" ++ toString video.depth.toNat ++
    " compressor=" ++ Text.quoted video.compressorName ++
    " extensions=" ++ bracketed (video.extensions.map fun extension => extension.header.tag.text)

def SampleDescription.text : SampleDescription → String
  | .video description => description.text
  | .unsupported size format =>
      format.text ++ " size=" ++ toString size.toNat ++ " (not decoded)"

def SampleTable.text (table : SampleTable) : String :=
  "stsd entries=" ++ toString table.entries.length ++
    String.join (table.entries.map fun entry => "\n  " ++ entry.text)

def Atom.text : Atom → String
  | .raw atom => atom.text
  | .movieHeader movie => movie.text
  | .sampleTable table => table.text

end MovieAtoms
