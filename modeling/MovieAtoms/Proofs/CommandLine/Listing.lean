import Mathlib.Algebra.GroupWithZero.Nat
import MovieAtoms.Proofs.CommandLine.FrontEnds
import MovieAtoms.Proofs.HexDump.Rows
import MovieAtoms.Proofs.Text.TameLines
import MovieAtoms.Proofs.Walk.Forest

/-!
# The lines of a listing

Bytes of a movie reach a listing in many ways: as tags, brands, formats, compressor names, dumps. Each
of them is shown by tame text, so a line stays the line that it is meant to be. Main statement:
`run_listing`, by which the output of a run is a number of tame lines that follows from the shape of
the records alone.
-/

namespace MovieAtoms

open Text

/-! ### Records on a line -/

@[simp] theorem Tag.isTame_text (tag : Tag) : isTame tag.text.toList := by
  rw [Tag.text, String.toList_ofList]
  exact isTame_shown _

@[simp] theorem Tag.isTame_fullName (tag : Tag) : isTame tag.fullName.toList := by
  have hknown : ∀ entry ∈ catalogue, isTame entry.fullName.toList := by
    decide +kernel
  unfold Tag.fullName Tag.describe?
  split
  · rename_i entry hentry
    exact hknown entry (List.mem_of_find?_eq_some hentry)
  · decide

@[simp] theorem CivilTime.isTame_yearText (year : Int) : isTame (yearText year) := by
  unfold yearText
  split
  · exact isTame_padded _ _
  · split <;> simp only [isTame_cons, isTame_padded] <;> decide

@[simp] theorem Timestamp.isTame_text (time : Timestamp) : isTame time.text.toList := by
  simp only [Timestamp.text, Timestamp.textBy, CivilTime.text, CivilTime.dateText,
    CivilTime.clockText, String.toList_append, String.toList_ofList, isTame_append, isTame_cons, isTame_padded,
    CivilTime.isTame_yearText]
  decide

theorem isTame_bracketed {texts : List String} (h : ∀ text ∈ texts, isTame text.toList) :
    isTame (bracketed texts).toList := by
  have htexts : isTame (", ".intercalate texts).toList := by
    rw [String.toList_intercalate]
    apply isTame_intercalate (by decide)
    intro text htext
    obtain ⟨line, hline, rfl⟩ := List.mem_map.mp htext
    exact h line hline
  unfold bracketed
  simp only [String.toList_append, isTame_append, htexts]
  decide

theorem isTame_bracketed_tags {items : List α} (tag : α → Tag) :
    isTame (bracketed (items.map fun item => (tag item).text)).toList := by
  apply isTame_bracketed
  intro text htext
  obtain ⟨item, -, rfl⟩ := List.mem_map.mp htext
  exact Tag.isTame_text _

@[simp] theorem RawAtom.isTame_text (atom : RawAtom) : isTame atom.text.toList := by
  unfold RawAtom.text
  simp only [String.toList_append, isTame_append, Tag.isTame_text, isTame_toString]
  decide

@[simp] theorem FileType.isTame_text (fileType : FileType) : isTame fileType.text.toList := by
  have hbrands : isTame (bracketed (fileType.compatibleBrands.map Tag.text)).toList :=
    isTame_bracketed_tags fun brand => brand
  have hkind : isTame (if fileType.isMovie then "QT" else "NoQT").toList := by
    split <;> decide
  unfold FileType.text
  simp only [String.toList_append, String.toList_ofList, isTame_append, Tag.isTame_text,
    isTame_capitals, hkind, hbrands]
  decide

@[simp] theorem MovieHeader.isTame_rateText (movie : MovieHeader) :
    isTame movie.rateText.toList := isTame_fixed _ _ _

@[simp] theorem MovieHeader.isTame_volumeText (movie : MovieHeader) :
    isTame movie.volumeText.toList := isTame_fixed _ _ _

@[simp] theorem MovieHeader.isTame_text (movie : MovieHeader) : isTame movie.text.toList := by
  unfold MovieHeader.text
  simp only [String.toList_append, isTame_append, Timestamp.isTame_text, isTame_toString,
    isTame_rateText, isTame_volumeText]
  decide

@[simp] theorem VideoDescription.isTame_text (video : VideoDescription) :
    isTame video.text.toList := by
  have hextensions : isTame (bracketed (video.extensions.map
      fun extension => extension.header.tag.text)).toList := isTame_bracketed_tags _
  unfold VideoDescription.text
  simp only [String.toList_append, isTame_append, Tag.isTame_text, isTame_toString, isTame_quoted,
    hextensions]
  decide

@[simp] theorem SampleDescription.isTame_text (entry : SampleDescription) :
    isTame entry.text.toList := by
  cases entry with
  | video description => exact description.isTame_text
  | unsupported size format =>
      unfold SampleDescription.text
      simp only [String.toList_append, isTame_append, Tag.isTame_text, isTame_toString]
      decide

/-! ### The shape of records -/

def Extension.isColorInfo : Extension → Bool
  | .colorInfo _ => true
  | _ => false

def Extension.isAvcConfig : Extension → Bool
  | .avcConfig _ => true
  | _ => false

/-- A line if there are colour parameters, and one if there is a decoder configuration. -/
def VideoDescription.extensionLines (video : VideoDescription) : Nat :=
  (if video.extensions.any Extension.isColorInfo then 1 else 0) +
    if video.extensions.any Extension.isAvcConfig then 1 else 0

/-- The lines of a record in a listing, its title included. -/
def Atom.lineCount (dumpLimit : Nat) : Atom → Nat
  | .movieHeader _ => 3
  | .raw atom => 2 + if dumpLimit = 0 then 0 else HexDump.lineCount dumpLimit atom.payload.length
  | .sampleTable table => 2 + table.entries.length +
      ((table.entries.filterMap SampleDescription.video?).map VideoDescription.extensionLines).sum

namespace CommandLine

/-! ### Records in a listing -/

theorem isTame_colorLine (color : ColorInfo) : isTame (colorLine color).toList := by
  unfold colorLine
  simp only [String.toList_append, isTame_append, Tag.isTame_text, isTame_toString]
  decide

theorem isTame_optionText (value? : Option UInt8) : isTame (optionText value?).toList := by
  cases value? with
  | none => decide
  | some value =>
      unfold optionText
      simp only [String.toList_append, isTame_append, isTame_toString]
      decide

theorem isTame_avcConfigLine (config : AvcConfig) : isTame (avcConfigLine config).toList := by
  unfold avcConfigLine
  simp only [String.toList_append, isTame_append, isTame_optionText]
  decide

theorem isTame_timingLine (movie : MovieHeader) : isTame (timingLine movie).toList := by
  unfold timingLine
  cases movie.durationSeconds? with
  | none =>
      simp only [String.toList_append, isTame_append, isTame_fixed]
      decide
  | some seconds =>
      simp only [String.toList_append, isTame_append, isTame_fixed, isTame_toString]
      decide

theorem isTame_title (index : Nat) (atom : Atom) : isTame (title index atom).toList := by
  unfold title
  simp only [String.toList_append, isTame_append, isTame_toString, Tag.isTame_text,
    Tag.isTame_fullName]
  decide

theorem isTame_of_mem_videoLines {video : VideoDescription} {line : String}
    (h : line ∈ videoLines video) : isTame line.toList := by
  rcases List.mem_append.mp h with hcolor | hconfig
  · obtain ⟨color, -, rfl⟩ := Option.map_eq_some_iff.mp (Option.mem_toList.mp hcolor)
    exact isTame_colorLine color
  · obtain ⟨config, -, rfl⟩ := Option.map_eq_some_iff.mp (Option.mem_toList.mp hconfig)
    exact isTame_avcConfigLine config

theorem length_videoLines (video : VideoDescription) :
    (videoLines video).length = video.extensionLines := by
  have hcolor : video.color?.isSome = video.extensions.any Extension.isColorInfo := by
    rw [VideoDescription.color?, List.isSome_findSome?]
    congr
    funext extension
    cases extension <;> rfl
  have hconfig : video.avcConfig?.isSome = video.extensions.any Extension.isAvcConfig := by
    rw [VideoDescription.avcConfig?, List.isSome_findSome?]
    congr
    funext extension
    cases extension <;> rfl
  rw [videoLines, List.length_append, VideoDescription.extensionLines, ← hcolor, ← hconfig]
  cases video.color? <;> cases video.avcConfig? <;> rfl

/-- The text of a sample table is a line for the table and one for each entry. -/
theorem tameLines_sampleTable (table : SampleTable) :
    TameLines (1 + table.entries.length) (ended ["  " ++ table.text]) := by
  -- the feeds stand in front of the entries, and behind the lines that are asked for
  let first := "  " ++ ("stsd entries=" ++ toString table.entries.length)
  let others := table.entries.map fun entry => "  " ++ entry.text
  have hlines : ended ["  " ++ table.text] = ended (first :: others) := by
    rw [← join_append_feed, SampleTable.text]
    simp only [ended, List.map_cons, List.map_nil, String.join_cons, String.join_nil,
      String.append_empty, String.append_assoc, first]
  have htame : ∀ line ∈ first :: others, isTame line.toList := by
    rw [List.forall_mem_cons]
    constructor
    · simp only [first, String.toList_append, isTame_append, isTame_toString]
      decide
    · intro line hline
      obtain ⟨entry, -, rfl⟩ := List.mem_map.mp hline
      exact isTame_toList_append (by decide) entry.isTame_text
  refine ⟨first :: others, hlines, htame, ?_⟩
  rw [List.length_cons, List.length_map, Nat.add_comm]

theorem tameLines_videos (videos : List VideoDescription) :
    TameLines (videos.map VideoDescription.extensionLines).sum
      (ended (videos.flatMap videoLines)) := by
  refine ⟨_, rfl, ?_, ?_⟩
  · intro line hline
    obtain ⟨video, -, hvideo⟩ := List.mem_flatMap.mp hline
    exact isTame_of_mem_videoLines hvideo
  · rw [List.length_flatMap]
    exact congrArg (fun f => (videos.map f).sum) (funext length_videoLines)

theorem tameLines_dump (dumpLimit : Nat) (payload : Bytes) :
    TameLines (if dumpLimit = 0 then 0 else HexDump.lineCount dumpLimit payload.length)
      (ended (if dumpLimit = 0 then [] else
        (HexDump.lines dumpLimit payload).map ("    " ++ ·))) := by
  split
  · exact ⟨[], rfl, nofun, rfl⟩
  · refine ⟨_, rfl, ?_, ?_⟩
    · intro line hline
      obtain ⟨row, hrow, rfl⟩ := List.mem_map.mp hline
      exact isTame_toList_append (by decide) (HexDump.isTame_of_mem_lines hrow)
    · rw [List.length_map, HexDump.length_lines]

theorem tameLines_record (dumpLimit index : Nat) (atom : Atom) :
    TameLines (atom.lineCount dumpLimit)
      (ended (title index atom :: recordLines dumpLimit atom)) := by
  have htitle : TameLines 1 (ended [title index atom]) := .line (isTame_title index atom)
  rw [← List.singleton_append, ended_append]
  cases atom with
  | movieHeader movie =>
      have htext : TameLines 1 (ended ["  " ++ movie.text]) :=
        .line (isTame_toList_append (by decide) movie.isTame_text)
      have htiming : TameLines 1 (ended [timingLine movie]) := .line (isTame_timingLine movie)
      have hlines := htitle.append (htext.append htiming)
      rw [← ended_append] at hlines
      exact hlines
  | sampleTable table =>
      have hlines := htitle.append ((tameLines_sampleTable table).append (tameLines_videos
        (table.entries.filterMap SampleDescription.video?)))
      rw [← ended_append, ← Nat.add_assoc, ← Nat.add_assoc] at hlines
      exact hlines
  | raw atom =>
      have htext : TameLines 1 (ended ["  " ++ atom.text]) :=
        .line (isTame_toList_append (by decide) atom.isTame_text)
      have hlines := htitle.append (htext.append (tameLines_dump dumpLimit atom.payload))
      rw [← ended_append, ← Nat.add_assoc] at hlines
      exact hlines

theorem tameLines_atoms (dumpLimit index : Nat) (atoms : List Atom) :
    TameLines (atoms.map (Atom.lineCount dumpLimit)).sum
      (ended (atomLines dumpLimit index atoms)) := by
  induction atoms generalizing index with
  | nil => exact ⟨[], rfl, nofun, rfl⟩
  | cons atom atoms ih =>
      rw [atomLines, ended_append]
      exact (tameLines_record dumpLimit index atom).append (ih (index + 1))

/-- A listing is the line of the file type and the lines of its records. -/
theorem tameLines_listing (dumpLimit : Nat) (extraction : Extraction) :
    TameLines (1 + (extraction.atoms.map (Atom.lineCount dumpLimit)).sum)
      (listing dumpLimit extraction) := by
  have hfirst : TameLines 1 (ended [extraction.fileType.text]) :=
    .line extraction.fileType.isTame_text
  have hatoms := tameLines_atoms dumpLimit 0 extraction.atoms
  have hlisting := hfirst.append hatoms
  rw [← ended_append] at hlisting
  exact hlisting

/-- What a run without `--json` prints when it succeeds: tame lines, as many as the records have by
    their shape. The bytes of the movie add no line and no control to them. -/
theorem run_listing {logger : Logger} {directory : Directory} {given : Arguments}
    (htext : given.json = false) (hsuccess : (given.run logger directory).exitCode = 0) :
    ∃ script source extraction,
      compiled directory given.script = .ok script ∧
      directory given.path = .ok source ∧
      (Walk.run script source).1.result = .ok extraction ∧
      TameLines (1 + (extraction.atoms.map (Atom.lineCount given.dumpLimit)).sum)
        (given.run logger directory).output := by
  simp only [Arguments.run, walked] at hsuccess ⊢
  cases hscript : compiled directory given.script with
  | error failure =>
      simp only [hscript] at hsuccess
      cases hsuccess
  | ok script =>
      cases hopen : directory given.path with
      | error cause =>
          simp only [hscript, hopen] at hsuccess
          cases hsuccess
      | ok source =>
          cases hwalk : (Walk.run script source).1.result with
          | error error =>
              simp only [hscript, hopen, hwalk, Except.mapError] at hsuccess
              cases hsuccess
          | ok extraction =>
              refine ⟨script, source, extraction, rfl, rfl, hwalk, ?_⟩
              simp only [hwalk, Except.mapError, htext]
              exact tameLines_listing given.dumpLimit extraction

/-- A file type with a brand that moves the cursor of a terminal. -/
def hostileFileType : FileType :=
  ⟨⟨20, Tag.fileType⟩, Tag.movieBrand, 0, [⟨0x1B, 0x5B, 0x41, 0x0A⟩]⟩

/-- Free space that holds a line feed and other controls. -/
def hostileForest : List Node := [.leaf (Tag.spelled 'f' 'r' 'e' 'e') [0x0A, 0x1B, 0x7F]]

def hostileDirectory : Directory :=
  Directory.ofList [("movie.mov",
    .ok (.ofBytes (hostileFileType.toBytes ++ Forest.bytes hostileForest)))]

/-- What is asked for by `-e "read free" --hex=2 movie.mov`. -/
def hostileArguments : Arguments where
  path := "movie.mov"
  lines := ["read free"]
  scriptFile := none
  json := false
  dumpLimit := 2
  showScript := false
  verbosity := 0

/-- A line for the file type, two for the free space, and two for its dump of two bytes. -/
theorem run_listing_hostileDirectory :
    (hostileArguments.run .silent hostileDirectory).exitCode = 0 ∧
      TameLines 5 (hostileArguments.run .silent hostileDirectory).output := by
  let directive : Directive := ⟨.read, Tag.spelled 'f' 'r' 'e' 'e'⟩
  let free : Atom := .raw ⟨⟨11, Tag.spelled 'f' 'r' 'e' 'e'⟩, [0x0A, 0x1B, 0x7F]⟩
  have hcompile : Script.compile ("\n".intercalate ["read free"]) = .ok [directive] := by
    decide +kernel
  have hscript : compiled hostileDirectory hostileArguments.script = .ok [directive] := by
    rw [Arguments.script, hostileArguments, if_neg (by simp), compiled_lines (by decide),
      compiledText, hcompile]
    rfl
  have hwell : hostileFileType.WellFormed := ⟨rfl, rfl⟩
  have hfits : Forest.Fits hostileForest := by decide
  have hforest : Forest.walk [directive] hostileForest = some (.ok [free], []) := rfl
  have hwalk : (Walk.run [directive] (.ofBytes (hostileFileType.toBytes ++
      Forest.bytes hostileForest))).1.result = .ok ⟨hostileFileType, [free]⟩ := by
    obtain ⟨events, hyields⟩ := Walk.yields_run_forest hwell hfits hforest
    exact congrArg Logged.result (hyields.eq rfl rfl).1
  have hopen : hostileDirectory hostileArguments.path =
      .ok (.ofBytes (hostileFileType.toBytes ++ Forest.bytes hostileForest)) := rfl
  have hsuccess : (hostileArguments.run .silent hostileDirectory).exitCode = 0 := by
    simp only [Arguments.run, walked, hscript, hopen, hwalk]
    rfl
  obtain ⟨script, source, extraction, hscript', hopen', hwalk', houtput⟩ :=
    run_listing rfl hsuccess
  cases hscript.symm.trans hscript'
  cases hopen.symm.trans hopen'
  cases hwalk.symm.trans hwalk'
  exact ⟨hsuccess, houtput⟩

end CommandLine

end MovieAtoms
