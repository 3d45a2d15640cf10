import MovieAtoms.Atom.Json
import MovieAtoms.Atom.Text
import MovieAtoms.HexDump
import MovieAtoms.Json.Pretty
import MovieAtoms.Walk

/-!
# Reports of an extraction

What the command line prints about the atoms it found: a listing for people, or one JSON value.
-/

namespace MovieAtoms.CommandLine

/-- A value that may be missing, as it is shown in listings. -/
def optionText : Option UInt8 → String
  | some value => "Some(" ++ toString value.toNat ++ ")"
  | none => "None"

def colorLine (color : ColorInfo) : String :=
  "    colr " ++ color.parameterType.text ++
    " primaries=" ++ toString color.primariesIndex.toNat ++
    " transfer=" ++ toString color.transferFunctionIndex.toNat ++
    " matrix=" ++ toString color.matrixIndex.toNat

def avcConfigLine (config : AvcConfig) : String :=
  "    avcC profile=" ++ optionText config.profile? ++
    " level=" ++ optionText config.level? ++
    " nal_length_size=" ++ optionText config.unitLengthSize?

def videoLines (video : VideoDescription) : List String :=
  (video.color?.map colorLine).toList ++ (video.avcConfig?.map avcConfigLine).toList

def timingLine (movie : MovieHeader) : String :=
  "  fps=" ++ Decimal.fixed 3 movie.timeScale.toNat 1000 ++ " duration_secs=" ++
    match movie.durationSeconds? with
    | some seconds => toString seconds.toNat
    | none => "-"

/-- The lines about a record, below its title. -/
def recordLines (dumpLimit : Nat) : Atom → List String
  | .movieHeader movie => ["  " ++ movie.text, timingLine movie]
  | .sampleTable table =>
      ("  " ++ table.text) :: (table.entries.filterMap SampleDescription.video?).flatMap videoLines
  | .raw atom =>
      ("  " ++ atom.text) ::
        if dumpLimit = 0 then []
        else (HexDump.lines dumpLimit atom.payload).map ("    " ++ ·)

/-- The title of a record: its index, tag and full name. -/
def title (index : Nat) (atom : Atom) : String :=
  "[" ++ toString index ++ "] " ++ atom.tag.text ++ " (" ++ atom.tag.fullName ++ ")"

/-- The lines about records of which the first has the given index. -/
def atomLines (dumpLimit index : Nat) : List Atom → List String
  | [] => []
  | atom :: rest =>
      title index atom :: recordLines dumpLimit atom ++ atomLines dumpLimit (index + 1) rest

/-- The listing for people, each line ended. -/
def listing (dumpLimit : Nat) (extraction : Extraction) : String :=
  String.join ((extraction.fileType.text :: atomLines dumpLimit 0 extraction.atoms).map (· ++ "\n"))

/-- The JSON value for programs, and a line end. -/
def jsonReport (path : String) (extraction : Extraction) : String :=
  Json.pretty 0 (.object [
    ("file", .string path),
    ("file_type", extraction.fileType.toJson),
    ("atoms", Json.ofList Atom.toJson extraction.atoms)]) ++ "\n"

end MovieAtoms.CommandLine
