import MovieAtoms.CommandLine.Run
import MovieAtoms.Proofs.CommandLine.Messages
import MovieAtoms.Proofs.CommandLine.Options
import MovieAtoms.Proofs.Script.Lines
import MovieAtoms.Proofs.Source.Contents
import MovieAtoms.Proofs.Text.Utf8

/-!
# Where a script comes from

The command line takes a script from its arguments, line by line, or from a file that holds the
lines. Main statement: `run_frontEnds`, by which a run does not tell the two apart, whatever takes
the arguments apart and whatever keeps the log. Its first failure is that of the script, then that of
opening the movie, then that of decoding it, and what it shows tells the failure.
-/

namespace MovieAtoms

/-- A source without a fault is read to its end. -/
theorem Source.readToEnd_eq_ok {source : Source} (h : source.ending = .endOfInput) :
    source.readToEnd = .ok source.rest := by
  obtain ⟨next, hgather, -, -⟩ := gather_eq (source.rest.length + 1) source
  have hbeyond : ¬source.rest.length + 1 ≤ source.rest.length := Nat.not_succ_le_self _
  rw [if_neg hbeyond, h, List.take_of_length_le (Nat.le_succ _)] at hgather
  rw [readToEnd, hgather]

/-- Lines compile as the text does that holds them with line feeds in between. -/
theorem Script.compile_intercalate {lines : List String}
    (h : ∀ line ∈ lines, '\n' ∉ line.toList) :
    compile ("\n".intercalate lines) = compileLines lines := by
  have hlines : ∀ line ∈ lines.map String.toList, '\n' ∉ line := by
    intro line hline
    obtain ⟨text, htext, rfl⟩ := List.mem_map.mp hline
    exact h text htext
  rw [compile, String.toList_intercalate]
  exact compileFrom_lines_of_ended (ended_intercalate hlines) 1

namespace CommandLine

/-! ### Scripts by their text -/

/-- What compiling a text comes to for a run. -/
def compiledText (text : String) : Except Failure Script :=
  (Script.compile text).mapError fun error => ⟨error.message, none⟩

section
variable {directory : Directory} {lines : List String} {script text : String} {source : Source}

theorem scriptText_eq_ok (hopen : directory script = .ok source)
    (hbytes : source.rest = Text.Utf8.encode text) (hending : source.ending = .endOfInput) :
    scriptText directory script = .ok text := by
  rw [scriptText, hopen]
  simp only
  rw [Source.readToEnd_eq_ok hending, hbytes]
  simp only
  rw [Text.Utf8.decode?_encode]

theorem compiled_file (hopen : directory script = .ok source)
    (hbytes : source.rest = Text.Utf8.encode text) (hending : source.ending = .endOfInput) :
    compiled directory (.file script) = compiledText text := by
  rw [compiled]
  simp only [scriptText_eq_ok hopen hbytes hending]
  rfl

/-- Lines give the script of the text that holds them. -/
theorem compiled_lines (hfeed : ∀ line ∈ lines, '\n' ∉ line.toList) :
    compiled directory (.lines lines) = compiledText ("\n".intercalate lines) := by
  rw [compiledText, Script.compile_intercalate hfeed]
  rfl

end

/-! ### Phases -/

theorem text_opening (path : String) (cause : OpenError) :
    Failure.text ⟨"opening " ++ path, some cause.message⟩ =
      (ExtractError.openFailed path cause).shown path := by
  have hfront : "Error: opening " = "Error: " ++ "opening " := rfl
  unfold Failure.text ExtractError.shown
  simp only [hfront, String.append_assoc]

theorem text_decoding (path : String) (error : DecodeError) :
    Failure.text ⟨"decoding " ++ path, some error.message⟩ =
      (ExtractError.decode error).shown path := by
  have hfront : "Error: decoding " = "Error: " ++ "decoding " := rfl
  unfold Failure.text ExtractError.shown
  simp only [hfront, String.append_assoc]

theorem shown_missing (path : String) :
    (ExtractError.openFailed path .missing).shown path = "Error: opening " ++ path ++
      "\n\nCaused by:\n    No such file or directory (os error 2)\n" := by
  have hend : "\n\nCaused by:\n    No such file or directory (os error 2)\n" =
      "\n\nCaused by:\n    " ++ ("No such file or directory (os error 2)" ++ "\n") := rfl
  unfold ExtractError.shown OpenError.message
  simp only [hend, String.append_assoc]

/-- What a run shows of an extraction by a script's text. The first failure decides, in the order of
    the phases, and a run that fails prints nothing on the standard output. -/
structure Reports (logger : Logger) (directory : Directory) (given : Arguments) (text : String)
    (outcome : Outcome) : Prop where
  succeeds : outcome.exitCode = 0 ↔
    ∃ extraction, extractFile directory given.path text = .ok extraction
  fails : outcome.exitCode ≠ 0 → outcome.exitCode = 1 ∧ outcome.output = ""
  mistake : ∀ error, Script.compile text = .error error →
    outcome.errorOutput = (ExtractError.script error).shown given.path
  unopened : ∀ script cause, Script.compile text = .ok script →
    directory given.path = .error cause →
      outcome.errorOutput = (if given.showScript then script.text else "") ++
        (ExtractError.openFailed given.path cause).shown given.path
  missing : ∀ script, Script.compile text = .ok script → directory given.path = .error .missing →
    outcome.errorOutput = (if given.showScript then script.text else "") ++
      "Error: opening " ++ given.path ++
        "\n\nCaused by:\n    No such file or directory (os error 2)\n"
  undecoded : ∀ script movie error, Script.compile text = .ok script →
    directory given.path = .ok movie → (Walk.run script movie).1.result = .error error →
      outcome.errorOutput = (if given.showScript then script.text else "") ++
        logger.text given.level (Walk.run script movie).1.events ++
          (ExtractError.decode error).shown given.path
  logged : ∀ script movie extraction, Script.compile text = .ok script →
    directory given.path = .ok movie → (Walk.run script movie).1.result = .ok extraction →
      outcome.errorOutput = (if given.showScript then script.text else "") ++
        logger.text given.level (Walk.run script movie).1.events

section
variable {logger : Logger} {directory : Directory} {given : Arguments} {text : String}
  {script : Script} {movie : Source}

variable (hcompiled : compiled directory given.script = compiledText text)
include hcompiled

theorem run_of_mistake {error : Script.Error} (h : Script.compile text = .error error) :
    given.run logger directory = ⟨1, "", (ExtractError.script error).shown given.path⟩ := by
  rw [Arguments.run, hcompiled, compiledText, h]
  rfl

theorem run_of_unopened {cause : OpenError}
    (h : Script.compile text = .ok script) (hopen : directory given.path = .error cause) :
    given.run logger directory = ⟨1, "", (if given.showScript then script.text else "") ++
      (ExtractError.openFailed given.path cause).shown given.path⟩ := by
  rw [Arguments.run, hcompiled, compiledText, h]
  simp only [Except.mapError, walked, hopen, Logger.text_nil, String.append_empty, text_opening]

theorem run_of_undecoded {error : DecodeError}
    (h : Script.compile text = .ok script) (hopen : directory given.path = .ok movie)
    (hwalk : (Walk.run script movie).1.result = .error error) :
    given.run logger directory = ⟨1, "", (if given.showScript then script.text else "") ++
      logger.text given.level (Walk.run script movie).1.events ++
        (ExtractError.decode error).shown given.path⟩ := by
  rw [Arguments.run, hcompiled, compiledText, h]
  simp only [Except.mapError, walked, hopen, hwalk, text_decoding]

theorem run_of_decoded {extraction : Extraction}
    (h : Script.compile text = .ok script) (hopen : directory given.path = .ok movie)
    (hwalk : (Walk.run script movie).1.result = .ok extraction) :
    given.run logger directory =
      ⟨0, if given.json then jsonReport given.path extraction else listing given.dumpLimit extraction,
        (if given.showScript then script.text else "") ++
          logger.text given.level (Walk.run script movie).1.events⟩ := by
  rw [Arguments.run, hcompiled, compiledText, h]
  simp only [Except.mapError, walked, hopen, hwalk]

/-- A run ends as the extraction does. -/
theorem run_ends (logger : Logger) :
    ((∃ extraction, extractFile directory given.path text = .ok extraction) ∧
      (given.run logger directory).exitCode = 0) ∨
    ((∃ error, extractFile directory given.path text = .error error) ∧
      (given.run logger directory).exitCode = 1 ∧ (given.run logger directory).output = "") := by
  cases h : Script.compile text with
  | error error =>
      right
      simp [extractFile, h, run_of_mistake hcompiled h]
  | ok script =>
      cases hopen : directory given.path with
      | error cause =>
          right
          simp [extractFile, h, hopen, run_of_unopened hcompiled h hopen]
      | ok movie =>
          cases hwalk : (Walk.run script movie).1.result with
          | error error =>
              right
              simp [extractFile, h, hopen, hwalk, Except.mapError,
                run_of_undecoded hcompiled h hopen hwalk]
          | ok extraction =>
              left
              simp [extractFile, h, hopen, hwalk, Except.mapError,
                run_of_decoded hcompiled h hopen hwalk]

theorem reports_run : Reports logger directory given text (given.run logger directory) := by
  constructor
  case succeeds =>
    rcases run_ends hcompiled logger with ⟨hextract, hexit⟩ | ⟨⟨error, hextract⟩, hexit, -⟩
    · simp [hextract, hexit]
    · simp [hextract, hexit]
  case fails =>
    intro hexit
    rcases run_ends hcompiled logger with ⟨-, hzero⟩ | ⟨-, hone⟩
    · exact absurd hzero hexit
    · exact hone
  case mistake =>
    intro error h
    rw [run_of_mistake hcompiled h]
  case unopened =>
    intro script cause h hopen
    rw [run_of_unopened hcompiled h hopen]
  case missing =>
    intro script h hopen
    rw [run_of_unopened hcompiled h hopen]
    simp only [shown_missing, String.append_assoc]
  case undecoded =>
    intro script movie error h hopen hwalk
    rw [run_of_undecoded hcompiled h hopen hwalk]
  case logged =>
    intro script movie extraction h hopen hwalk
    rw [run_of_decoded hcompiled h hopen hwalk]

end

variable {logger : Logger} {directory : Directory}

/-- Where a script comes from is not shown. -/
theorem Reports.of_script {given : Arguments} {lines : List String} {scriptFile : Option String}
    {text : String} {outcome : Outcome}
    (h : Reports logger directory { given with lines, scriptFile } text outcome) :
    Reports logger directory given text outcome :=
  ⟨h.succeeds, h.fails, h.mistake, h.unopened, h.missing, h.undecoded, h.logged⟩

/-- Whatever takes the arguments apart, lines and the file that holds them give the same run. -/
theorem runBy_of_parsed {parse : Parser} {lines : List String} {script : String} {source : Source}
    (hsome : lines ≠ [])
    (hfeed : ∀ line ∈ lines, '\n' ∉ line.toList)
    (hopen : directory script = .ok source)
    (hbytes : source.rest = Text.Utf8.encode ("\n".intercalate lines))
    (hending : source.ending = .endOfInput)
    {byLines byFile : List String} {given : Arguments}
    (hlines : parse byLines = .ok { given with lines := lines, scriptFile := none })
    (hfile : parse byFile = .ok { given with lines := [], scriptFile := some script }) :
    runBy parse logger directory byLines = runBy parse logger directory byFile ∧
      Reports logger directory given ("\n".intercalate lines)
        (runBy parse logger directory byLines) := by
  have hcompiled : compiled directory { given with lines := lines, scriptFile := none }.script =
      compiledText ("\n".intercalate lines) := by
    rw [Arguments.script, if_neg hsome, compiled_lines hfeed]
  rw [runBy, runBy, hlines, hfile]
  constructor
  · simp only [Arguments.run]
    rw [hcompiled, Arguments.script, compiled_file hopen hbytes hending]
    rfl
  · exact (reports_run hcompiled).of_script

/-- A run does not tell lines from a file of lines, whatever the command line looks like otherwise,
    and it fails where the extraction does and as it does. An extraction by a script that does not
    compile leaves its source alone. Errors that are shown alike say the same. -/
theorem run_frontEnds {parse : Parser} {accepts : String → Prop} {lines : List String}
    {script : String} {source : Source}
    (hparse : parse.TakesScripts accepts)
    (hsome : lines ≠ [])
    (hfeed : ∀ line ∈ lines, '\n' ∉ line.toList)
    (hopen : directory script = .ok source)
    (hbytes : source.rest = Text.Utf8.encode ("\n".intercalate lines))
    (hending : source.ending = .endOfInput) :
    (∀ byLines byFile given,
      parse byLines = .ok { given with lines := lines, scriptFile := none } →
      parse byFile = .ok { given with lines := [], scriptFile := some script } →
        runBy parse logger directory byLines = runBy parse logger directory byFile ∧
        Reports logger directory given ("\n".intercalate lines)
          (runBy parse logger directory byLines)) ∧
    (∀ rest given, parse rest = .ok given → given.lines = [] → given.scriptFile = none →
      (∀ line ∈ lines, accepts line) → accepts script →
        runBy parse logger directory (lineOptions lines ++ rest) =
          runBy parse logger directory ("-p" :: script :: rest) ∧
        Reports logger directory given ("\n".intercalate lines)
          (runBy parse logger directory (lineOptions lines ++ rest))) ∧
    (∀ text error source, Script.compile text = .error error →
      extract text source = ⟨.error (.script error), [], source⟩) ∧
    (∀ path (error error' : ExtractError), error.shown path = error'.shown path →
      error.SaysSame error') := by
  refine ⟨?_, ?_, fun text error source herror => extract_of_compile_error herror,
    fun path error error' => ExtractError.saysSame_of_shown⟩
  · intro byLines byFile given hlines hfile
    exact runBy_of_parsed hsome hfeed hopen hbytes hending hlines hfile
  · intro rest given hrest hempty hnone hlines hscript
    apply runBy_of_parsed hsome hfeed hopen hbytes hending
    · rw [hparse.lines hrest hnone hlines, hempty, hnone, List.append_nil]
    · rw [hparse.file script rest given hscript hrest hempty hnone, hempty]

/-- A file with a mistake in its last line, which ends in a carriage return. -/
def smallDirectory : Directory :=
  Directory.ofList [("walk.txt", .ok (.ofBytes (Text.Utf8.encode "read moov\npeek\r")))]

theorem run_frontEnds_smallDirectory :
    runBy Arguments.parse .timeless smallDirectory ["--exec=read moov", "-epeek\r", "movie.mov"] =
      runBy Arguments.parse .timeless smallDirectory ["movie.mov", "-p", "walk.txt"] ∧
    runBy Arguments.parse .timeless smallDirectory
        ["-e", "read moov", "-e", "peek\r", "movie.mov"] =
      runBy Arguments.parse .timeless smallDirectory ["-p", "walk.txt", "movie.mov"] ∧
    (runBy Arguments.parse .timeless smallDirectory
        ["-e", "read moov", "-e", "peek\r", "movie.mov"]).errorOutput =
      "Error: syntax error on line 2: expected 'read', 'skip' or 'step into': \"peek\"\n" := by
  let given : Arguments := ⟨"movie.mov", [], none, false, 0, false, 0⟩
  let mistake : Script.Error := ⟨2, "peek", .unknownKeyword⟩
  obtain ⟨hparsed, hwritten, -, -⟩ :=
    @run_frontEnds .timeless smallDirectory Arguments.parse _ ["read moov", "peek\r"] "walk.txt" _
      Arguments.takesScripts_parse (by simp) (by decide) rfl (by decide +kernel) rfl
  obtain ⟨hsame, -⟩ := hparsed ["--exec=read moov", "-epeek\r", "movie.mov"]
    ["movie.mov", "-p", "walk.txt"] given (by decide +kernel) (by decide +kernel)
  obtain ⟨hrest, hreports⟩ := hwritten ["movie.mov"] given (by decide +kernel) rfl rfl (by decide)
    (by decide)
  have hmistake : Script.compile ("\n".intercalate ["read moov", "peek\r"]) = .error mistake := by
    decide +kernel
  have hshown : (ExtractError.script mistake).shown given.path =
      "Error: syntax error on line 2: expected 'read', 'skip' or 'step into': \"peek\"\n" := by
    decide +kernel
  exact ⟨hsame, hrest, (hreports.mistake mistake hmistake).trans hshown⟩

end CommandLine

end MovieAtoms
