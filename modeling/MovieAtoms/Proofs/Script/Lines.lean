import Mathlib.Data.List.Forall2
import MovieAtoms.Proofs.Script.Grammar

/-!
# Scripts line by line

A script is compiled line by line, and a line does not tell how it was ended: neither a carriage
return at its end nor an empty line behind the last one changes what comes of it. Main statements:
`compileFrom_lines_of_ended`, by which a text compiles as its lines do, whatever mixture of line
ends it was written with, and `compile_of_ended`, which says what becomes of the lines: those that
are not idle ask for the directives, and the first with a mistake is the one that `Blames` names.
-/

namespace MovieAtoms

namespace Text

/-- A gap at the start does not count. -/
theorem trimStart_append {gap : List Char} (h : Blank gap) (rest : List Char) :
    trimStart (gap ++ rest) = trimStart rest :=
  List.dropWhile_append_of_pos h

theorem trimStart_word {word : List Char} (h : IsWord word) (rest : List Char) :
    trimStart (word ++ rest) = word ++ rest := by
  obtain ⟨c, run, rfl⟩ := List.exists_cons_of_ne_nil h.some
  rw [List.cons_append, trimStart, List.dropWhile_cons, h.solid c List.mem_cons_self]
  rfl

/-- A blank at the end does not count. -/
theorem trim_concat_blank {c : Char} (hc : isBlank c) (text : List Char) :
    trim (text ++ [c]) = trim text := by
  have hgap : Blank [c] := blank_nil.cons hc
  have hstart : trimStart [c] = [] := trimStart_append hgap []
  have hfront (front : List Char) : trimStart (c :: front) = trimStart front :=
    trimStart_append hgap front
  rw [trim, trim]
  by_cases hblank : (trimStart text).isEmpty
  · have htrim : trimStart (text ++ [c]) = [] := by
      rw [trimStart, List.dropWhile_append, ← trimStart, if_pos hblank]
      exact hstart
    rw [htrim, List.isEmpty_iff.mp hblank]
  · have htrim : trimStart (text ++ [c]) = trimStart text ++ [c] := by
      rw [trimStart, List.dropWhile_append, ← trimStart, if_neg hblank]
    rw [htrim, List.reverse_append, List.reverse_singleton, List.singleton_append, hfront]

/-- A line ends in a carriage return, or it has none to lose. -/
theorem dropReturn_cases (line : List Char) :
    dropReturn line = line ∨ line = dropReturn line ++ ['\r'] := by
  unfold dropReturn
  split
  · rename_i hreturn
    obtain ⟨front, rfl⟩ := List.getLast?_eq_some_iff.mp hreturn
    rw [List.dropLast_concat]
    exact Or.inr rfl
  · exact Or.inl rfl

theorem dropReturn_concat (line : List Char) : dropReturn (line ++ ['\r']) = line := by
  rw [dropReturn, List.getLast?_concat, if_pos rfl, List.dropLast_concat]

end Text

namespace Script

open Text

/-! ### Lines that ask for nothing -/

/-- Blank, or a comment from its first character on that is not blank. -/
def isIdle (line : List Char) : Bool :=
  match trimStart line with
  | [] => true
  | c :: _ => c = '#'

theorem beforeComment_eq_nil {words : List (List Char)} :
    beforeComment words = [] ↔ ∀ first ∈ words.head?, first.head? = some '#' := by
  cases words with
  | nil => simp [beforeComment]
  | cons first others => simp [beforeComment, List.takeWhile_cons]

theorem compileLine_eq_ok_none {line : List Char} : compileLine line = .ok none ↔ isIdle line := by
  rw [compileLine, compileWords_eq_ok_none, beforeComment_eq_nil, words_lower]
  have hspaced := spaced_words line
  generalize Text.words line = words at hspaced
  cases hspaced with
  | nil hgap =>
      have htrim : trimStart line = [] := by
        rw [← List.append_nil line, trimStart_append hgap]
        rfl
      simp [isIdle, htrim]
  | @cons gap first rest others hgap hfirst hrest hothers =>
      have hhash : isIdle (gap ++ (first ++ rest)) ↔ first.head? = some '#' := by
        rw [isIdle, trimStart_append hgap, trimStart_word hfirst]
        obtain ⟨c, run, rfl⟩ := List.exists_cons_of_ne_nil hfirst.some
        simp
      rw [hhash, List.map_cons, List.head?_cons, ← head?_lower_eq_hash]
      simp

/-! ### What becomes of lines -/

/-- The first line with a mistake decides, whatever follows it. -/
theorem compileFrom_append_error {front rest : List (List Char)} {line : List Char}
    {mistake : Mistake} (hfront : ∀ earlier ∈ front, ∃ asked, compileLine earlier = .ok asked)
    (hline : compileLine line = .error mistake) (number : Nat) :
    compileFrom number (front ++ line :: rest) =
      .error ⟨number + front.length, String.ofList (trim line), mistake⟩ := by
  induction front generalizing number with
  | nil =>
      rw [List.nil_append, compileFrom, hline]
      rfl
  | cons earlier front ih =>
      obtain ⟨⟨asked, hasked⟩, hothers⟩ := List.forall_mem_cons.mp hfront
      rw [List.cons_append, compileFrom, hasked]
      simp only
      rw [ih hothers, List.length_cons, Nat.add_right_comm, Nat.add_assoc]
      rfl

/-- The error tells of the first line with a mistake, where lines count from a number on. -/
inductive Blames (number : Nat) : List (List Char) → Error → Prop where
  | intro {front rest : List (List Char)} {line : List Char} {mistake : Mistake}
      (hfront : ∀ earlier ∈ front, ∃ asked, compileLine earlier = .ok asked)
      (hline : compileLine line = .error mistake) :
      Blames number (front ++ line :: rest)
        ⟨number + front.length, String.ofList (trim line), mistake⟩

theorem Blames.cons {number : Nat} {line : List Char} {rest : List (List Char)} {error : Error}
    {asked : Option Directive} (hline : compileLine line = .ok asked)
    (h : Blames (number + 1) rest error) : Blames number (line :: rest) error := by
  cases h with
  | @intro front rest blamed mistake hfront hblamed =>
      have hall : ∀ earlier ∈ line :: front, ∃ asked, compileLine earlier = .ok asked :=
        List.forall_mem_cons.mpr ⟨⟨asked, hline⟩, hfront⟩
      have hnumber : number + 1 + front.length = number + (line :: front).length := by
        rw [List.length_cons]
        omega
      rw [hnumber]
      exact .intro hall hblamed

theorem compileFrom_eq_error {lines : List (List Char)} {error : Error} (number : Nat) :
    compileFrom number lines = .error error ↔ Blames number lines error := by
  constructor
  · intro h
    induction lines generalizing number with
    | nil => cases h
    | cons line rest ih =>
        rw [compileFrom] at h
        cases hline : compileLine line with
        | error mistake =>
            rw [hline] at h
            cases h
            exact .intro (List.forall_mem_nil _) hline
        | ok asked =>
            rw [hline] at h
            cases hrest : compileFrom (number + 1) rest with
            | ok script =>
                rw [hrest] at h
                cases h
            | error later =>
                rw [hrest] at h
                cases h
                exact (ih (number + 1) hrest).cons hline
  · intro h
    cases h with
    | intro hfront hline => exact compileFrom_append_error hfront hline number

/-- Lines make a script if each compiles by itself. -/
theorem exists_compileFrom_eq_ok {lines : List (List Char)} (number : Nat) :
    (∃ script, compileFrom number lines = .ok script) ↔
      ∀ line ∈ lines, ∃ asked, compileLine line = .ok asked := by
  constructor
  · rintro ⟨script, h⟩ line hline
    obtain ⟨asked, hasked, -⟩ := (compileFrom_ok_iff _ _ _).mp h
    have hmem : compileLine line ∈ asked.map .ok := hasked ▸ List.mem_map_of_mem hline
    obtain ⟨found, -, hfound⟩ := List.mem_map.mp hmem
    exact ⟨found, hfound.symm⟩
  · intro h
    cases houtcome : compileFrom number lines with
    | ok script => exact ⟨script, rfl⟩
    | error error =>
        cases (compileFrom_eq_error number).mp houtcome with
        | intro _ hmistake =>
            obtain ⟨asked, hasked⟩ := h _ (List.mem_append_right _ List.mem_cons_self)
            rw [hmistake] at hasked
            cases hasked

/-- The lines that are not idle ask for the directives of a script, one each. -/
def AskFor (lines : List (List Char)) (script : Script) : Prop :=
  List.Forall₂ (fun line directive => compileLine line = .ok (some directive))
    (lines.filter (!isIdle ·)) script

theorem askFor_cons_of_none {line : List Char} {rest : List (List Char)} {script : Script}
    (hline : compileLine line = .ok none) : AskFor (line :: rest) script ↔ AskFor rest script := by
  rw [AskFor, AskFor, List.filter_cons_of_neg]
  rw [compileLine_eq_ok_none.mp hline]
  decide

theorem askFor_cons_of_ne {line : List Char} {rest : List (List Char)} {script : Script}
    (hline : compileLine line ≠ .ok none) :
    AskFor (line :: rest) script ↔ ∃ directive more,
      compileLine line = .ok (some directive) ∧ AskFor rest more ∧ script = directive :: more := by
  rw [AskFor, List.filter_cons_of_pos, List.forall₂_cons_left_iff]
  · rfl
  · rw [Bool.eq_false_iff.mpr fun hidle => hline (compileLine_eq_ok_none.mpr hidle)]
    rfl

theorem compileFrom_eq_ok {lines : List (List Char)} {script : Script} (number : Nat) :
    compileFrom number lines = .ok script ↔ AskFor lines script := by
  induction lines generalizing number script with
  | nil =>
      rw [compileFrom, AskFor, List.filter_nil, List.forall₂_nil_left_iff, Except.ok.injEq, eq_comm]
  | cons line rest ih =>
      rw [compileFrom]
      cases hline : compileLine line with
      | error mistake =>
          rw [askFor_cons_of_ne (by simp [hline]), hline]
          simp
      | ok asked =>
          cases asked with
          | none =>
              have hmap : Except.map (Option.toList none ++ ·) (compileFrom (number + 1) rest) =
                  compileFrom (number + 1) rest := by
                cases compileFrom (number + 1) rest <;> rfl
              rw [askFor_cons_of_none hline, ← ih (number + 1)]
              exact iff_of_eq (congrArg (· = _) hmap)
          | some directive =>
              rw [askFor_cons_of_ne (by simp [hline]), hline]
              simp only [← ih (number + 1)]
              cases compileFrom (number + 1) rest <;> simp [Except.map, eq_comm]

/-! ### Line ends -/

theorem compileLine_concat_return (line : List Char) :
    compileLine (line ++ ['\r']) = compileLine line := by
  have hreturn : lower ['\r'] = ['\r'] := by decide
  rw [compileLine, compileLine, lower_append, hreturn, words_concat_blank (by decide)]

theorem compileFrom_cons_dropReturn {line : List Char} {rest rest' : List (List Char)}
    {number : Nat} (h : compileFrom (number + 1) rest = compileFrom (number + 1) rest') :
    compileFrom number (dropReturn line :: rest) = compileFrom number (line :: rest') := by
  rcases dropReturn_cases line with hsame | hreturn
  · rw [hsame, compileFrom, compileFrom, h]
  · have hline : compileLine line = compileLine (dropReturn line) :=
      (congrArg compileLine hreturn).trans (compileLine_concat_return _)
    have htrim : trim line = trim (dropReturn line) :=
      (congrArg trim hreturn).trans (trim_concat_blank (by decide) _)
    rw [compileFrom, compileFrom, h, hline, htrim]

/-- A text that holds lines one after the other. Each is ended by a line feed, with or without a
    carriage return in front of it, and the last may do without. -/
inductive Ended : List (List Char) → List Char → Prop where
  | nil : Ended [] []
  | last {line : List Char} (hline : '\n' ∉ line) : Ended [line] line
  | feed {line : List Char} {rest : List (List Char)} {text : List Char} (hline : '\n' ∉ line)
      (hrest : Ended rest text) : Ended (line :: rest) (line ++ '\n' :: text)
  | returnFeed {line : List Char} {rest : List (List Char)} {text : List Char}
      (hline : '\n' ∉ line) (hrest : Ended rest text) :
      Ended (line :: rest) (line ++ '\r' :: '\n' :: text)

/-- A text compiles as its lines do. -/
theorem compileFrom_lines_of_ended {lines : List (List Char)} {text : List Char}
    (h : Ended lines text) (number : Nat) :
    compileFrom number (Text.lines text) = compileFrom number lines := by
  induction h generalizing number with
  | nil => rw [lines_of_not_mem (by decide)]; rfl
  | @last line hline =>
      rw [lines_of_not_mem hline]
      cases line with
      | nil =>
          -- an empty end is no line, and an empty line asks for nothing
          have hempty : compileLine [] = .ok none := by
            rw [compileLine, lower, List.flatMap_nil, words]
            rfl
          rw [compileFrom, hempty]
          rfl
      | cons c rest => rfl
  | feed hline _ ih =>
      rw [lines_append_feed hline]
      exact compileFrom_cons_dropReturn (ih (number + 1))
  | @returnFeed line rest text hline _ ih =>
      have hreturn : '\n' ∉ line ++ ['\r'] := by
        rw [List.mem_append]
        rintro (hmem | hmem)
        · exact hline hmem
        · exact absurd hmem (by decide)
      have hsplit : line ++ '\r' :: '\n' :: text = line ++ ['\r'] ++ '\n' :: text := by
        rw [List.append_assoc]
        rfl
      rw [hsplit, lines_append_feed hreturn, dropReturn_concat, compileFrom, compileFrom,
        ih (number + 1)]

/-- Line feeds between lines end all of them but the last. -/
theorem ended_intercalate {lines : List (List Char)} (h : ∀ line ∈ lines, '\n' ∉ line) :
    Ended lines (['\n'].intercalate lines) := by
  induction lines with
  | nil => exact .nil
  | cons line rest ih =>
      obtain ⟨hline, hrest⟩ := List.forall_mem_cons.mp h
      cases rest with
      | nil =>
          rw [List.intercalate_singleton]
          exact .last hline
      | cons next rest =>
          rw [List.intercalate_cons_cons, List.append_assoc]
          exact .feed hline (ih hrest)

/-- What becomes of a text is what becomes of its lines: if each compiles by itself, the directives
    that they ask for, and otherwise the error that blames the first with a mistake. -/
theorem compile_of_ended {lines : List String} {text : String}
    (h : Ended (lines.map String.toList) text.toList) :
    compile text = compileLines lines ∧
    ((∃ script, compileLines lines = .ok script) ↔
      ∀ line ∈ lines, ∃ asked, compileLine line.toList = .ok asked) ∧
    (∀ script, compileLines lines = .ok script ↔ AskFor (lines.map String.toList) script) ∧
    ∀ error, compileLines lines = .error error ↔ Blames 1 (lines.map String.toList) error := by
  refine ⟨compileFrom_lines_of_ended h 1, ?_, fun _ => compileFrom_eq_ok 1,
    fun _ => compileFrom_eq_error 1⟩
  rw [compileLines, exists_compileFrom_eq_ok, List.forall_mem_map]

theorem compile_of_ended_mixed :
    compile "Read mvhd\n#c\r\r\n Peek moov" = .error ⟨3, "Peek moov", .unknownKeyword⟩ := by
  have hended : Ended (["Read mvhd", "#c\r", " Peek moov"].map String.toList)
      "Read mvhd\n#c\r\r\n Peek moov".toList :=
    .feed (by decide) (.returnFeed (by decide) (.last (by decide)))
  have hblames : Blames 1 (["Read mvhd", "#c\r", " Peek moov"].map String.toList)
      ⟨3, "Peek moov", .unknownKeyword⟩ := (compileFrom_eq_error 1).mp (by decide +kernel)
  exact (compile_of_ended hended).1.trans (((compile_of_ended hended).2.2.2 _).mpr hblames)

end Script

end MovieAtoms
