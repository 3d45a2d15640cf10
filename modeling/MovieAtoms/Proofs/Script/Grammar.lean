import MovieAtoms.Proofs.Text.SmallForm
import MovieAtoms.Script

/-!
# The grammar of a line

What a line asks for is said here on its characters: `core` is the small form of the line up to a
comment, and `Asks` is the shape of a core that asks for a directive. What can be wrong is said on the
words of the core, one rule for each mistake (`Breaks`). Main statement: `compileLine_grammar`, by
which the compiler accepts exactly the lines of this shape and blames every other line for the rule
that it breaks.
-/

namespace MovieAtoms

/-- The words that ask for an operation. -/
def Operation.keywords : Operation → List (List Char)
  | .read => ["read".toList]
  | .skip => ["skip".toList]
  | .stepInto => ["step".toList, "into".toList]

namespace Script

open Text

variable {line text name rest : List Char} {words others : List (List Char)} {tag : Tag}
  {operation : Operation} {mistake : Mistake}

/-! ### Names -/

/-- A name of four ASCII characters, and the tag with their bytes. -/
structure Spells (name : List Char) (tag : Tag) : Prop where
  length : name.length = 4
  ascii : ∀ c ∈ name, isAscii c
  bytes : tag.toBytes = name.map Char.toUInt8

theorem tagOfName_of_length_ne (h : name.length ≠ 4) : tagOfName name = .error .badNameLength := by
  unfold tagOfName
  split
  · exact absurd rfl h
  · rfl

theorem tagOfName_of_length_eq (h : name.length = 4) :
    ∃ tag, tag.toBytes = name.map Char.toUInt8 ∧
      tagOfName name = if name.all isAscii then .ok tag else .error .nonAsciiName := by
  match name, h with
  | [a, b, c, d], _ => exact ⟨Tag.spelled a b c d, rfl, rfl⟩

theorem tagOfName_eq_ok : tagOfName name = .ok tag ↔ Spells name tag := by
  by_cases hlength : name.length = 4
  · obtain ⟨spelled, hbytes, htag⟩ := tagOfName_of_length_eq hlength
    rw [htag]
    constructor
    · intro h
      split at h
      · rename_i hascii
        cases h
        exact ⟨hlength, List.all_eq_true.mp hascii, hbytes⟩
      · cases h
    · intro h
      rw [if_pos (List.all_eq_true.mpr h.ascii), Tag.eq_of_toBytes_eq (hbytes.trans h.bytes.symm)]
  · rw [tagOfName_of_length_ne hlength]
    exact ⟨fun h => (by cases h), fun h => absurd h.length hlength⟩

/-! ### What words ask for -/

/-- What is wrong with words that ask for no directive. -/
inductive Breaks : List (List Char) → Mistake → Prop where
  /-- The first word is none of `read`, `skip` and `step`. -/
  | unknownKeyword {first : List Char} {others : List (List Char)} (hread : first ≠ "read".toList)
      (hskip : first ≠ "skip".toList) (hstep : first ≠ "step".toList) :
      Breaks (first :: others) .unknownKeyword
  /-- Behind `step`, the next word is not there or another one than `into`. -/
  | missingInto {others : List (List Char)} (hinto : others.head? ≠ some "into".toList) :
      Breaks ("step".toList :: others) .missingInto
  /-- Behind the keywords there is not exactly one word. -/
  | wrongWordCount {operation : Operation} {others : List (List Char)} (hone : others.length ≠ 1) :
      Breaks (operation.keywords ++ others) .wrongWordCount
  | badNameLength {operation : Operation} {name : List Char} (hlength : name.length ≠ 4) :
      Breaks (operation.keywords ++ [name]) .badNameLength
  | nonAsciiName {operation : Operation} {name : List Char} (hlength : name.length = 4)
      (hbeyond : ∃ c ∈ name, isAscii c = false) :
      Breaks (operation.keywords ++ [name]) .nonAsciiName

/-- What becomes of words. -/
inductive Outcome : List (List Char) → Except Mistake (Option Directive) → Prop where
  | nothing : Outcome [] (.ok none)
  | asks {operation : Operation} {name : List Char} {tag : Tag} (hname : Spells name tag) :
      Outcome (operation.keywords ++ [name]) (.ok (some ⟨operation, tag⟩))
  | breaks {words : List (List Char)} {mistake : Mistake} (h : Breaks words mistake) :
      Outcome words (.error mistake)

theorem compileWords_keywords (operation : Operation) (others : List (List Char)) :
    compileWords (operation.keywords ++ others) = (directive operation others).map some := by
  cases operation with
  | read =>
      rw [Operation.keywords, List.singleton_append, compileWords.eq_def]
      exact if_pos rfl
  | skip =>
      rw [Operation.keywords, List.singleton_append, compileWords.eq_def]
      exact (if_neg (by decide)).trans (if_pos rfl)
  | stepInto =>
      rw [Operation.keywords, List.cons_append, List.singleton_append, compileWords,
        if_neg (by decide), if_neg (by decide), if_pos rfl]
      exact if_pos rfl

theorem directive_of_length_ne (h : others.length ≠ 1) :
    directive operation others = .error .wrongWordCount := by
  unfold directive
  split
  · exact absurd rfl h
  · rfl

theorem Breaks.compileWords_eq (h : Breaks words mistake) :
    compileWords words = .error mistake := by
  cases h with
  | unknownKeyword hread hskip hstep =>
      rw [compileWords.eq_def]
      exact (if_neg hread).trans ((if_neg hskip).trans (if_neg hstep))
  | @missingInto others hinto =>
      rw [compileWords.eq_def]
      refine (if_neg (by decide)).trans ((if_neg (by decide)).trans ((if_pos rfl).trans ?_))
      cases others with
      | nil => rfl
      | cons second others => exact if_neg fun h => hinto (congrArg some h)
  | wrongWordCount hone =>
      rw [compileWords_keywords, directive_of_length_ne hone]
      rfl
  | badNameLength hlength =>
      rw [compileWords_keywords, directive, tagOfName_of_length_ne hlength]
      rfl
  | @nonAsciiName operation name hlength hbeyond =>
      obtain ⟨tag, -, htag⟩ := tagOfName_of_length_eq hlength
      have hall : ¬name.all isAscii := by
        obtain ⟨c, hc, hbeyond⟩ := hbeyond
        exact fun hall => Bool.eq_false_iff.mp hbeyond (List.all_eq_true.mp hall c hc)
      rw [compileWords_keywords, directive, htag, if_neg hall]
      rfl

theorem Outcome.compileWords_eq {outcome : Except Mistake (Option Directive)}
    (h : Outcome words outcome) : compileWords words = outcome := by
  cases h with
  | nothing => rfl
  | asks hname =>
      rw [compileWords_keywords, directive, tagOfName_eq_ok.mpr hname]
      rfl
  | breaks h => exact h.compileWords_eq

/-- Behind the keywords of an operation the words decide by their number and the name. -/
theorem exists_outcome_keywords (operation : Operation) (others : List (List Char)) :
    ∃ outcome, Outcome (operation.keywords ++ others) outcome := by
  by_cases hone : others.length = 1
  · obtain ⟨name, rfl⟩ := List.length_eq_one_iff.mp hone
    by_cases hlength : name.length = 4
    · by_cases hascii : ∀ c ∈ name, isAscii c
      · obtain ⟨tag, hbytes, -⟩ := tagOfName_of_length_eq hlength
        exact ⟨_, .asks ⟨hlength, hascii, hbytes⟩⟩
      · have hbeyond : ∃ c ∈ name, isAscii c = false := by simpa using hascii
        exact ⟨_, .breaks (.nonAsciiName hlength hbeyond)⟩
    · exact ⟨_, .breaks (.badNameLength hlength)⟩
  · exact ⟨_, .breaks (.wrongWordCount hone)⟩

/-- Something becomes of all words. -/
theorem exists_outcome (words : List (List Char)) : ∃ outcome, Outcome words outcome := by
  cases words with
  | nil => exact ⟨_, .nothing⟩
  | cons first others =>
      by_cases hread : first = "read".toList
      · subst hread
        exact exists_outcome_keywords .read others
      by_cases hskip : first = "skip".toList
      · subst hskip
        exact exists_outcome_keywords .skip others
      by_cases hstep : first = "step".toList
      · subst hstep
        by_cases hinto : others.head? = some "into".toList
        · obtain ⟨others, rfl⟩ := List.head?_eq_some_iff.mp hinto
          exact exists_outcome_keywords .stepInto others
        · exact ⟨_, .breaks (.missingInto hinto)⟩
      · exact ⟨_, .breaks (.unknownKeyword hread hskip hstep)⟩

theorem outcome_iff {outcome : Except Mistake (Option Directive)} :
    Outcome words outcome ↔ compileWords words = outcome := by
  refine ⟨Outcome.compileWords_eq, ?_⟩
  rintro rfl
  obtain ⟨outcome, houtcome⟩ := exists_outcome words
  rwa [houtcome.compileWords_eq]

theorem compileWords_eq_ok_none : compileWords words = .ok none ↔ words = [] := by
  rw [← outcome_iff]
  constructor
  · intro h
    cases h
    rfl
  · rintro rfl
    exact .nothing

theorem compileWords_eq_ok_some {directive : Directive} :
    compileWords words = .ok (some directive) ↔
      ∃ name, words = directive.operation.keywords ++ [name] ∧ Spells name directive.tag := by
  rw [← outcome_iff]
  constructor
  · intro h
    cases h with
    | asks hname => exact ⟨_, rfl, hname⟩
  · rintro ⟨name, rfl, hname⟩
    exact .asks hname

theorem compileWords_eq_error : compileWords words = .error mistake ↔ Breaks words mistake := by
  rw [← outcome_iff]
  constructor
  · intro h
    cases h with
    | breaks h => exact h
  · exact .breaks

/-! ### The core of a line -/

/-- The text in front of the first `#` that starts a word. Whether a word can start at the first
    character is told by `fresh`. -/
def uncommented (fresh : Bool) : List Char → List Char
  | [] => []
  | c :: rest => if fresh ∧ c = '#' then [] else c :: uncommented (isBlank c) rest

/-- The small form of a line, up to a comment. -/
def core (line : List Char) : List Char := uncommented true (lower line)

theorem uncommented_cons_of_ne {c : Char} (hc : c ≠ '#') (fresh : Bool) (rest : List Char) :
    uncommented fresh (c :: rest) = c :: uncommented (isBlank c) rest := by
  rw [uncommented, if_neg fun h => hc h.2]

/-- No comment starts in a gap. -/
theorem uncommented_append_of_blank {gap : List Char} (hgap : Blank gap) (rest : List Char) :
    uncommented true (gap ++ rest) = gap ++ uncommented true rest := by
  induction gap with
  | nil => rfl
  | cons c gap ih =>
      obtain ⟨hc, hgap⟩ := List.forall_mem_cons.mp hgap
      have hne : c ≠ '#' := by
        rintro rfl
        exact absurd hc (by decide)
      rw [List.cons_append, uncommented_cons_of_ne hne, hc, ih hgap, List.cons_append]

/-- No comment starts inside a word. -/
theorem uncommented_append_of_solid {run : List Char} (hrun : ∀ c ∈ run, isBlank c = false)
    (rest : List Char) : uncommented false (run ++ rest) = run ++ uncommented false rest := by
  induction run with
  | nil => rfl
  | cons c run ih =>
      obtain ⟨hc, hrun⟩ := List.forall_mem_cons.mp hrun
      rw [List.cons_append, uncommented, if_neg (by simp), hc, ih hrun, List.cons_append]

/-- Behind a word, comments are those of the text that begins there. -/
theorem uncommented_of_atBoundary (h : AtBoundary text) :
    uncommented false text = uncommented true text := by
  cases text with
  | nil => rfl
  | cons c rest =>
      have hne : c ≠ '#' := by
        rintro rfl
        exact absurd (atBoundary_cons.mp h) (by decide)
      rw [uncommented_cons_of_ne hne, uncommented_cons_of_ne hne]

theorem atBoundary_uncommented (h : AtBoundary text) : AtBoundary (uncommented true text) := by
  cases text with
  | nil => exact h
  | cons c rest =>
      rw [uncommented]
      split
      · exact atBoundary_nil
      · exact atBoundary_cons.mpr (atBoundary_cons.mp h)

/-- What a comment leaves of the words are the words of the text that it leaves. -/
theorem spaced_uncommented (h : Spaced text words) :
    Spaced (uncommented true text) (beforeComment words) := by
  induction h with
  | @nil gap hgap =>
      rw [← List.append_nil gap, uncommented_append_of_blank hgap, uncommented, List.append_nil]
      exact .nil hgap
  | @cons gap word rest others hgap hword hrest _ ih =>
      obtain ⟨c, run, rfl⟩ := List.exists_cons_of_ne_nil hword.some
      rw [uncommented_append_of_blank hgap, List.cons_append]
      by_cases hc : c = '#'
      · rw [uncommented, if_pos ⟨rfl, hc⟩, List.append_nil, beforeComment, List.takeWhile_cons,
          if_neg (by simp [hc])]
        exact .nil hgap
      · have hsolid := List.forall_mem_cons.mp hword.solid
        rw [uncommented_cons_of_ne hc, hsolid.1, uncommented_append_of_solid hsolid.2,
          uncommented_of_atBoundary hrest, beforeComment, List.takeWhile_cons,
          if_pos (by simp [hc])]
        exact .cons hgap hword (atBoundary_uncommented hrest) ih

/-- A line is compiled from the words of its core. -/
theorem spaced_core (line : List Char) :
    Spaced (core line) (beforeComment (Text.words (lower line))) :=
  spaced_uncommented (spaced_words (lower line))

theorem compileLine_eq (line : List Char) :
    compileLine line = compileWords (Text.words (core line)) := by
  rw [(spaced_core line).words_eq, compileLine]

/-! ### What lines ask for -/

/-- An operation as it can be written. -/
inductive Keywords : Operation → List Char → Prop where
  | read : Keywords .read "read".toList
  | skip : Keywords .skip "skip".toList
  | stepInto {gap : List Char} (hgap : Blank gap) (hsome : gap ≠ []) :
      Keywords .stepInto ("step".toList ++ (gap ++ "into".toList))

/-- An operation and behind a gap a name of four ASCII characters, with blanks around them. -/
inductive Asks : List Char → Directive → Prop where
  | intro {before keywords gap name after : List Char} {operation : Operation} {tag : Tag}
      (hbefore : Blank before) (hkeywords : Keywords operation keywords) (hgap : Blank gap)
      (hsome : gap ≠ []) (hsolid : ∀ c ∈ name, isBlank c = false) (hname : Spells name tag)
      (hafter : Blank after) :
      Asks (before ++ (keywords ++ (gap ++ (name ++ after)))) ⟨operation, tag⟩

/-- A keyword is a word. -/
theorem isWord_of_mem_keywords (operation : Operation) :
    ∀ keyword ∈ operation.keywords, IsWord keyword := by
  cases operation <;> decide

theorem Keywords.words_append {keywords : List Char} (h : Keywords operation keywords)
    (hrest : AtBoundary rest) :
    Text.words (keywords ++ rest) = operation.keywords ++ Text.words rest := by
  have hword := isWord_of_mem_keywords operation
  cases h with
  | read => exact (hword _ List.mem_cons_self).words_append hrest
  | skip => exact (hword _ List.mem_cons_self).words_append hrest
  | @stepInto gap hgap hsome =>
      have hstep := hword "step".toList (by decide)
      have hinto := hword "into".toList (by decide)
      rw [List.append_assoc, List.append_assoc, hstep.words_append (hgap.atBoundary hsome _),
        hgap.words_append, hinto.words_append hrest]
      rfl

/-- Where the words of a text start with keywords, an operation is written. -/
theorem exists_keywords (h : Text.words text = operation.keywords ++ others) :
    ∃ before keywords rest, text = before ++ (keywords ++ rest) ∧ Blank before ∧
      Keywords operation keywords ∧ AtBoundary rest ∧ Text.words rest = others := by
  cases operation with
  | read =>
      obtain ⟨before, rest, htext, hbefore, -, hrest, hothers⟩ := words_eq_cons.mp h
      exact ⟨before, _, rest, htext, hbefore, .read, hrest, hothers⟩
  | skip =>
      obtain ⟨before, rest, htext, hbefore, -, hrest, hothers⟩ := words_eq_cons.mp h
      exact ⟨before, _, rest, htext, hbefore, .skip, hrest, hothers⟩
  | stepInto =>
      obtain ⟨before, behind, htext, hbefore, -, hbehind, hothers⟩ := words_eq_cons.mp h
      obtain ⟨gap, rest, rfl, hgap, hsome, -, hrest, hothers⟩ :=
        exists_gap_of_words_eq_cons hbehind hothers
      refine ⟨before, _, rest, ?_, hbefore, .stepInto hgap hsome, hrest, hothers⟩
      rw [htext, List.append_assoc, List.append_assoc]

/-- The shape that asks for a directive, said on words. -/
theorem asks_iff {directive : Directive} :
    Asks text directive ↔
      ∃ name, Text.words text = directive.operation.keywords ++ [name] ∧
        Spells name directive.tag := by
  constructor
  · intro h
    cases h with
    | @intro before keywords gap name after operation tag hbefore hkeywords hgap hsome hsolid hname
        hafter =>
        have hpositive : 0 < name.length := by rw [hname.length]; decide
        have hword : IsWord name := ⟨List.ne_nil_of_length_pos hpositive, hsolid⟩
        have hend : AtBoundary after := fun c hc => hafter c (List.mem_of_head? hc)
        refine ⟨name, ?_, hname⟩
        rw [hbefore.words_append, hkeywords.words_append (hgap.atBoundary hsome _),
          hgap.words_append, hword.words_append hend, hafter.words_eq]
  · rintro ⟨name, hwords, hname⟩
    obtain ⟨before, keywords, rest, htext, hbefore, hkeywords, hrest, hothers⟩ :=
      exists_keywords hwords
    obtain ⟨gap, after, rfl, hgap, hsome, hword, -, hnone⟩ :=
      exists_gap_of_words_eq_cons hrest hothers
    rw [htext]
    exact .intro hbefore hkeywords hgap hsome hword.solid hname (words_eq_nil.mp hnone)

/-- A comment does not count. -/
theorem compileLine_append_comment {blank : Char} (hblank : isBlank blank)
    (line comment : List Char) :
    compileLine (line ++ blank :: '#' :: comment) = compileLine line := by
  have hhash : lowerChar '#' = ['#'] := by decide
  have hwords : ∃ run others, Text.words ('#' :: lower comment) = ('#' :: run) :: others := by
    rw [Text.words, if_neg (by decide)]
    exact ⟨_, _, rfl⟩
  obtain ⟨run, others, hwords⟩ := hwords
  rw [compileLine, compileLine, lower_append, lower_cons, lowerChar_of_isBlank hblank, lower_cons,
    hhash, List.singleton_append, List.singleton_append, words_append_blank hblank, hwords,
    beforeComment, takeWhile_append_stop (by simp), beforeComment]

/-- What becomes of a line, by the characters of its core: blanks ask for nothing, the lines of one
    shape for a directive, and any other line breaks a rule. A comment at its end never counts. -/
theorem compileLine_grammar (line : List Char) :
    (compileLine line = .ok none ↔ Blank (core line)) ∧
    (∀ directive, compileLine line = .ok (some directive) ↔ Asks (core line) directive) ∧
    (∀ mistake, compileLine line = .error mistake ↔
      ∃ words, Spaced (core line) words ∧ Breaks words mistake) ∧
    ∀ blank comment, isBlank blank →
      compileLine (line ++ blank :: '#' :: comment) = compileLine line := by
  refine ⟨?_, fun directive => ?_, fun mistake => ?_,
    fun blank comment hblank => compileLine_append_comment hblank line comment⟩
  · rw [compileLine_eq, compileWords_eq_ok_none, words_eq_nil]
  · rw [compileLine_eq, compileWords_eq_ok_some, asks_iff]
  · rw [compileLine_eq, compileWords_eq_error]
    simp only [spaced_iff, exists_eq_left']

theorem compileLine_grammar_remark :
    compileLine "Step\tinto  moov #all".toList =
      .ok (some ⟨.stepInto, ⟨0x6D, 0x6F, 0x6F, 0x76⟩⟩) := by
  have hremark := (compileLine_grammar "Step\tinto  moov".toList).2.2.2 ' ' "all".toList (by decide)
  exact hremark.trans (by decide +kernel)

end Script

end MovieAtoms
