import MovieAtoms.Proofs.Text.Words

/-!
# Words and the gaps between them

`Spaced` says without any search what the words of a text are: a gap of blanks, a word, a gap, and so
on, where a word goes on to the next blank. Main statement: `spaced_iff`, by which this is what
`words` finds. `words_eq_nil` and `words_eq_cons` tell where the words stand in the text.
-/

namespace MovieAtoms.Text

/-- Nothing but blanks. -/
def Blank (text : List Char) : Prop := ∀ c ∈ text, isBlank c

/-- Something, and no blank in it. -/
structure IsWord (word : List Char) : Prop where
  some : word ≠ []
  solid : ∀ c ∈ word, isBlank c = false

instance : DecidablePred IsWord := fun word =>
  decidable_of_iff (word ≠ [] ∧ word.all (!isBlank ·)) ⟨fun h => ⟨h.1, by simpa using h.2⟩,
    fun h => ⟨h.some, by simpa using h.solid⟩⟩

/-- A word that stands in front of the text would end there. -/
def AtBoundary (text : List Char) : Prop := ∀ c ∈ text.head?, isBlank c

/-- The text consists of these words in this order and of gaps. -/
inductive Spaced : List Char → List (List Char) → Prop where
  | nil {gap : List Char} (hgap : Blank gap) : Spaced gap []
  | cons {gap word rest : List Char} {others : List (List Char)} (hgap : Blank gap)
      (hword : IsWord word) (hrest : AtBoundary rest) (hothers : Spaced rest others) :
      Spaced (gap ++ (word ++ rest)) (word :: others)

variable {text gap word rest : List Char} {others : List (List Char)} {c : Char}

/-! ### Gaps -/

theorem blank_nil : Blank [] := fun _ h => by cases h

theorem Blank.cons (h : Blank gap) (hc : isBlank c) : Blank (c :: gap) :=
  List.forall_mem_cons.mpr ⟨hc, h⟩

theorem atBoundary_nil : AtBoundary [] := fun _ h => by cases h

theorem atBoundary_cons : AtBoundary (c :: rest) ↔ isBlank c := by
  simp [AtBoundary]

theorem Blank.atBoundary (h : Blank gap) (hsome : gap ≠ []) (rest : List Char) :
    AtBoundary (gap ++ rest) := by
  obtain ⟨c, more, rfl⟩ := List.exists_cons_of_ne_nil hsome
  exact atBoundary_cons.mpr (h c List.mem_cons_self)

theorem Blank.words_append (h : Blank gap) (rest : List Char) :
    words (gap ++ rest) = words rest := by
  induction gap with
  | nil => rfl
  | cons c gap ih =>
      obtain ⟨hc, hgap⟩ := List.forall_mem_cons.mp h
      rw [List.cons_append, words_cons_blank hc, ih hgap]

theorem Blank.words_eq (h : Blank gap) : words gap = [] := by
  rw [← List.append_nil gap, h.words_append, words]

/-! ### Words -/

/-- A word ends where the text behind it begins with a blank, or is no more. -/
theorem IsWord.words_append (hword : IsWord word) (hrest : AtBoundary rest) :
    words (word ++ rest) = word :: words rest := by
  cases rest with
  | nil => rw [List.append_nil, words_of_not_isBlank hword.some hword.solid, words]
  | cons c rest =>
      have hc := atBoundary_cons.mp hrest
      rw [words_append_blank hc, words_of_not_isBlank hword.some hword.solid, words_cons_blank hc]
      rfl

theorem IsWord.not_atBoundary (hword : IsWord word) (rest : List Char) :
    ¬AtBoundary (word ++ rest) := by
  obtain ⟨c, more, rfl⟩ := List.exists_cons_of_ne_nil hword.some
  rw [List.cons_append, atBoundary_cons, hword.solid c List.mem_cons_self]
  decide

theorem Spaced.words_eq (h : Spaced text others) : words text = others := by
  induction h with
  | nil hgap => exact hgap.words_eq
  | cons hgap hword hrest _ ih => rw [hgap.words_append, hword.words_append hrest, ih]

theorem atBoundary_dropWhile (text : List Char) : AtBoundary (text.dropWhile (!isBlank ·)) := by
  intro c hc
  have hstop := List.head?_dropWhile_not (!isBlank ·) text
  rw [Option.mem_def.mp hc] at hstop
  simpa using hstop

theorem spaced_words (text : List Char) : Spaced text (words text) := by
  induction text using words.induct with
  | case1 =>
      rw [words]
      exact .nil blank_nil
  | case2 c rest hc ih =>
      rw [words_cons_blank hc]
      -- the gap in front of the first word grows by one blank
      generalize words rest = found at ih
      cases ih with
      | nil hgap => exact .nil (hgap.cons hc)
      | cons hgap hword hrest hothers => exact .cons (hgap.cons hc) hword hrest hothers
  | case3 c rest hc ih =>
      have hsolid : ∀ d ∈ c :: rest.takeWhile (!isBlank ·), isBlank d = false := by
        refine List.forall_mem_cons.mpr ⟨Bool.eq_false_iff.mpr hc, fun d hd => ?_⟩
        simpa using List.mem_takeWhile_imp hd
      have hword : IsWord (c :: rest.takeWhile (!isBlank ·)) := ⟨List.cons_ne_nil _ _, hsolid⟩
      have hspaced := Spaced.cons blank_nil hword (atBoundary_dropWhile rest) ih
      rw [words, if_neg hc]
      rwa [List.nil_append, List.cons_append, List.takeWhile_append_dropWhile] at hspaced

/-- The words of a text are those that it consists of. -/
theorem spaced_iff : Spaced text others ↔ words text = others :=
  ⟨Spaced.words_eq, fun h => h ▸ spaced_words text⟩

/-! ### Where the words stand -/

theorem words_eq_nil : words text = [] ↔ Blank text := by
  rw [← spaced_iff]
  constructor
  · intro h
    cases h with
    | nil hgap => exact hgap
  · exact .nil

theorem words_eq_cons :
    words text = word :: others ↔
      ∃ gap rest, text = gap ++ (word ++ rest) ∧ Blank gap ∧ IsWord word ∧ AtBoundary rest ∧
        words rest = others := by
  simp only [← spaced_iff]
  constructor
  · intro h
    cases h with
    | cons hgap hword hrest hothers => exact ⟨_, _, rfl, hgap, hword, hrest, hothers⟩
  · rintro ⟨gap, rest, rfl, hgap, hword, hrest, hothers⟩
    exact .cons hgap hword hrest hothers

/-- Behind a word the next one stands at a distance. -/
theorem exists_gap_of_words_eq_cons (hrest : AtBoundary rest) (h : words rest = word :: others) :
    ∃ gap behind, rest = gap ++ (word ++ behind) ∧ Blank gap ∧ gap ≠ [] ∧ IsWord word ∧
      AtBoundary behind ∧ words behind = others := by
  obtain ⟨gap, behind, rfl, hgap, hword, hbehind, hothers⟩ := words_eq_cons.mp h
  refine ⟨gap, behind, rfl, hgap, ?_, hword, hbehind, hothers⟩
  rintro rfl
  exact hword.not_atBoundary behind hrest

end MovieAtoms.Text
