import MovieAtoms.Proofs.Text.Spacing
import MovieAtoms.Text.Ascii
import MovieAtoms.Text.LowerCase

/-!
# What small forms keep

The small form of a text is made character by character, and `LowerForm` says what can become of one.
Everything else here follows from it. Blanks and the sign of a comment stay what they are, so the
words of a small form are the small forms of the words (`words_lower`). No capital is left
(`not_capital_of_mem_lower`), and only capitals change in an ASCII text (`lower_of_isAscii`). But a
small form in ASCII does not come of ASCII alone: the Kelvin sign has one as well
(`isAscii_lower_iff`).
-/

namespace MovieAtoms.Text

/-- The sign of a unit of temperature, which stands apart from the letter that it looks like. -/
def kelvinSign : Char := '\u212A'

/-- What becomes of a character. -/
inductive LowerForm (c : Char) : List Char → Prop where
  /-- The capital I with a dot falls apart. -/
  | dotted (hc : c = '\u0130') : LowerForm c ['i', '\u0307']
  /-- Any other capital has one small letter. -/
  | small {run : CaseRun} {d : Char} (hrun : run ∈ caseRuns) (hfirst : run.first ≤ c.toNat)
      (hlast : c.toNat ≤ run.last) (hd : d.toNat = run.image + (c.toNat - run.first)) :
      LowerForm c [d]
  | same (hnone : ∀ run ∈ caseRuns, run.lower? c.toNat = none) : LowerForm c [c]

variable {c d : Char} {text word : List Char}

/-! ### The table of capitals -/

/-- Small letters are characters. -/
theorem toNat_small {run : CaseRun} {capital : Nat} (hrun : run ∈ caseRuns)
    (hlast : capital ≤ run.last) :
    (Char.ofNat (run.image + (capital - run.first))).toNat =
      run.image + (capital - run.first) := by
  have himages : ∀ run ∈ caseRuns, run.image + (run.last - run.first) < 0xD800 ∨
      0xDFFF < run.image ∧ run.image + (run.last - run.first) < 0x110000 := by decide +kernel
  have hvalid : (run.image + (capital - run.first)).isValidChar := by
    have himage := himages run hrun
    unfold Nat.isValidChar
    omega
  have hchar : Char.ofNat (run.image + (capital - run.first)) = Char.ofNatAux _ hvalid :=
    dif_pos hvalid
  rw [hchar]
  rfl

theorem lowerForm (c : Char) : LowerForm c (lowerChar c) := by
  unfold lowerChar
  split
  · rename_i hdotted
    exact .dotted hdotted
  · split
    · rename_i small hsmall
      obtain ⟨run, hrun, hlower⟩ := List.exists_of_findSome?_eq_some hsmall
      unfold CaseRun.lower? at hlower
      split at hlower
      · rename_i hcapital
        cases hlower
        exact .small hrun hcapital.1 hcapital.2.1 (toNat_small hrun hcapital.2.1)
      · cases hlower
    · rename_i hnone
      exact .same (List.findSome?_eq_none_iff.mp hnone)

/-- The table starts with the ASCII capitals. Their small letters, too, come before all others. -/
theorem ge_of_mem_caseRuns : ∀ run ∈ caseRuns, 0x41 ≤ run.first ∧ 0x61 ≤ run.image := by
  decide +kernel

/-- A run leads from ASCII to ASCII, or it is that of the Kelvin sign, or it stays outside. -/
theorem ascii_of_mem_caseRuns : ∀ run ∈ caseRuns,
    run.first = 0x41 ∧ run.last = 0x5A ∧ run.image = 0x61 ∨
      run.first = 0x212A ∧ run.last = 0x212A ∧ run.image = 0x6B ∨
      0x80 ≤ run.first ∧ 0x80 ≤ run.image ∧ (run.last < 0x212A ∨ 0x212A < run.first) := by
  decide +kernel

theorem isBlank_eq_false {least greatest : Nat} (hleast : least ≤ c.toNat)
    (hgreatest : c.toNat ≤ greatest)
    (h : ∀ range ∈ blankRanges, greatest < range.1 ∨ range.2 < least) : isBlank c = false := by
  refine List.any_eq_false.mpr fun range hrange hin => ?_
  have hapart := h range hrange
  have hin := of_decide_eq_true hin
  omega

/-- Capitals and small letters are no blanks. -/
theorem isBlank_of_mem_caseRuns {run : CaseRun} (hrun : run ∈ caseRuns)
    (hfirst : run.first ≤ c.toNat) (hlast : c.toNat ≤ run.last)
    (hd : d.toNat = run.image + (c.toNat - run.first)) : isBlank c = false ∧ isBlank d = false := by
  have hcapitals : ∀ run ∈ caseRuns, ∀ range ∈ blankRanges,
      run.last < range.1 ∨ range.2 < run.first := by decide +kernel
  have hsmall : ∀ run ∈ caseRuns, ∀ range ∈ blankRanges,
      run.image + (run.last - run.first) < range.1 ∨ range.2 < run.image := by decide +kernel
  exact ⟨isBlank_eq_false hfirst hlast (hcapitals run hrun),
    isBlank_eq_false (by omega) (by omega) (hsmall run hrun)⟩

/-! ### One character -/

theorem LowerForm.isBlank_eq {form : List Char} (h : LowerForm c form) (hd : d ∈ form) :
    isBlank d = isBlank c := by
  cases h with
  | dotted hc =>
      subst hc
      simp only [List.mem_cons, List.not_mem_nil, or_false] at hd
      rcases hd with rfl | rfl <;> decide
  | small hrun hfirst hlast hsmall =>
      obtain rfl := List.mem_singleton.mp hd
      obtain ⟨hcapital, hsmall⟩ := isBlank_of_mem_caseRuns hrun hfirst hlast hsmall
      rw [hcapital, hsmall]
  | same => rw [List.mem_singleton.mp hd]

theorem LowerForm.eq_hash_iff {form : List Char} (h : LowerForm c form) (hd : d ∈ form) :
    d = '#' ↔ c = '#' := by
  cases h with
  | dotted hc =>
      subst hc
      simp only [List.mem_cons, List.not_mem_nil, or_false] at hd
      rcases hd with rfl | rfl <;> decide
  | small hrun hfirst hlast hsmall =>
      obtain rfl := List.mem_singleton.mp hd
      obtain ⟨hcapital, himage⟩ := ge_of_mem_caseRuns _ hrun
      have hhash : '#'.toNat = 0x23 := rfl
      constructor <;> rintro rfl <;> omega
  | same => rw [List.mem_singleton.mp hd]

theorem lowerChar_ne_nil (c : Char) : lowerChar c ≠ [] := by
  have h := lowerForm c
  intro hnil
  rw [hnil] at h
  cases h

theorem lowerChar_of_isBlank (hc : isBlank c) : lowerChar c = [c] := by
  have h := lowerForm c
  generalize lowerChar c = form at h
  cases h with
  | dotted hdotted =>
      subst hdotted
      exact absurd hc (by decide)
  | small hrun hfirst hlast hsmall =>
      rw [(isBlank_of_mem_caseRuns hrun hfirst hlast hsmall).1] at hc
      cases hc
  | same => rfl

/-- What holds of the numbers below 128 holds of every ASCII character. -/
theorem forall_isAscii {p : Char → Prop} (h : ∀ number < 128, p (Char.ofNat number))
    (hc : isAscii c) : p c := by
  have hchar := h c.toNat (of_decide_eq_true hc)
  rwa [Char.ofNat_toNat] at hchar

theorem eq_of_toNat_eq (h : c.toNat = d.toNat) : c = d := by
  rw [← Char.ofNat_toNat c, h, Char.ofNat_toNat]

theorem isAscii_iff : isAscii c ↔ c.toNat < 0x80 := decide_eq_true_iff

theorem lowerChar_of_isAscii (hc : isAscii c) : lowerChar c = [c.toLower] := by
  have htoLower := forall_isAscii (p := fun c => c.toLower.toNat =
    if 0x41 ≤ c.toNat ∧ c.toNat ≤ 0x5A then c.toNat + 0x20 else c.toNat) (by decide +kernel) hc
  have hsmall := isAscii_iff.mp hc
  have h := lowerForm c
  generalize lowerChar c = form at h
  cases h with
  | dotted hdotted =>
      subst hdotted
      exact absurd hc (by decide)
  | @small run d hrun hfirst hlast hd =>
      -- of the three kinds of runs only that of the ASCII capitals has the character
      have hrun := ascii_of_mem_caseRuns run hrun
      rw [if_pos (by omega)] at htoLower
      rw [eq_of_toNat_eq (c := d) (d := c.toLower) (by omega)]
  | same hnone =>
      have hcapital := hnone ⟨0x41, 0x5A, 1, 0x61⟩ List.mem_cons_self
      simp only [CaseRun.lower?, Nat.mod_one, and_true, ite_eq_right_iff, reduceCtorEq,
        imp_false] at hcapital
      rw [if_neg hcapital] at htoLower
      rw [eq_of_toNat_eq htoLower]

theorem not_capital_of_mem_lowerChar (h : d ∈ lowerChar c) :
    ¬(0x41 ≤ d.toNat ∧ d.toNat ≤ 0x5A) := by
  have hform := lowerForm c
  generalize lowerChar c = form at h hform
  cases hform with
  | dotted =>
      simp only [List.mem_cons, List.not_mem_nil, or_false] at h
      rcases h with rfl | rfl <;> decide
  | small hrun _ _ hsmall =>
      obtain rfl := List.mem_singleton.mp h
      have himage := (ge_of_mem_caseRuns _ hrun).2
      omega
  | same hnone =>
      obtain rfl := List.mem_singleton.mp h
      have hcapital := hnone ⟨0x41, 0x5A, 1, 0x61⟩ List.mem_cons_self
      simpa only [CaseRun.lower?, Nat.mod_one, and_true, ite_eq_right_iff, reduceCtorEq]
        using hcapital

theorem eq_kelvinSign_iff : c = kelvinSign ↔ c.toNat = 0x212A :=
  ⟨fun h => by rw [h]; rfl, fun h => eq_of_toNat_eq h⟩

/-- The Kelvin sign is the only character beyond ASCII with a small form in ASCII. -/
theorem isAscii_lowerChar_iff : (∀ d ∈ lowerChar c, isAscii d) ↔ isAscii c ∨ c = kelvinSign := by
  have h := lowerForm c
  generalize lowerChar c = form at h
  cases h with
  | dotted hc =>
      subst hc
      rw [List.forall_mem_cons, List.forall_mem_singleton]
      decide
  | @small run d hrun hfirst hlast hd =>
      rw [List.forall_mem_singleton, eq_kelvinSign_iff, isAscii_iff, isAscii_iff]
      have hrun := ascii_of_mem_caseRuns run hrun
      omega
  | same hnone =>
      rw [List.forall_mem_singleton]
      refine ⟨Or.inl, ?_⟩
      rintro (hc | rfl)
      · exact hc
      · exact absurd hnone (by decide +kernel)

theorem length_lowerChar (h : ∀ d ∈ lowerChar c, isAscii d) : (lowerChar c).length = 1 := by
  have hform := lowerForm c
  generalize lowerChar c = form at h hform
  cases hform with
  | dotted => exact absurd (h '\u0307' (by decide)) (by decide)
  | small => rfl
  | same => rfl

/-! ### Texts -/

theorem lower_append (front rest : List Char) : lower (front ++ rest) = lower front ++ lower rest :=
  List.flatMap_append

theorem lower_cons (c : Char) (rest : List Char) : lower (c :: rest) = lowerChar c ++ lower rest :=
  List.flatMap_cons

/-- Only capitals change in an ASCII text. -/
theorem lower_of_isAscii (h : ∀ c ∈ text, isAscii c) : lower text = text.map Char.toLower := by
  induction text with
  | nil => rfl
  | cons c rest ih =>
      obtain ⟨hc, hrest⟩ := List.forall_mem_cons.mp h
      rw [lower_cons, lowerChar_of_isAscii hc, ih hrest]
      rfl

/-- The small form of a text has no capitals. -/
theorem not_capital_of_mem_lower (h : c ∈ lower text) : ¬(0x41 ≤ c.toNat ∧ c.toNat ≤ 0x5A) := by
  obtain ⟨d, -, hd⟩ := List.mem_flatMap.mp h
  exact not_capital_of_mem_lowerChar hd

theorem isAscii_lower_iff :
    (∀ d ∈ lower text, isAscii d) ↔ ∀ c ∈ text, isAscii c ∨ c = kelvinSign := by
  simp only [← isAscii_lowerChar_iff, lower, List.mem_flatMap]
  exact ⟨fun h c hc d hd => h d ⟨c, hc, hd⟩, fun h d ⟨c, hc, hd⟩ => h c hc d hd⟩

theorem length_lower (h : ∀ d ∈ lower text, isAscii d) : (lower text).length = text.length := by
  induction text with
  | nil => rfl
  | cons c rest ih =>
      rw [lower_cons] at h ⊢
      obtain ⟨hc, hrest⟩ := List.forall_mem_append.mp h
      rw [List.length_append, length_lowerChar hc, ih hrest, List.length_cons, Nat.add_comm]

theorem Blank.lower_eq (h : Blank text) : lower text = text := by
  induction text with
  | nil => rfl
  | cons c rest ih =>
      obtain ⟨hc, hrest⟩ := List.forall_mem_cons.mp h
      rw [lower_cons, lowerChar_of_isBlank hc, ih hrest]
      rfl

theorem AtBoundary.lower (h : AtBoundary text) : AtBoundary (lower text) := by
  cases text with
  | nil => exact h
  | cons c rest =>
      have hc := atBoundary_cons.mp h
      rw [lower_cons, lowerChar_of_isBlank hc]
      exact atBoundary_cons.mpr hc

theorem IsWord.lower (h : IsWord word) : IsWord (lower word) where
  some := by
    obtain ⟨c, rest, rfl⟩ := List.exists_cons_of_ne_nil h.some
    rw [lower_cons]
    exact List.append_ne_nil_of_left_ne_nil (lowerChar_ne_nil c) _
  solid := by
    intro d hd
    obtain ⟨c, hc, hform⟩ := List.mem_flatMap.mp hd
    rw [(lowerForm c).isBlank_eq hform, h.solid c hc]

theorem Spaced.lower {found : List (List Char)} (h : Spaced text found) :
    Spaced (lower text) (found.map Text.lower) := by
  induction h with
  | nil hgap =>
      rw [hgap.lower_eq]
      exact .nil hgap
  | cons hgap hword hrest _ ih =>
      rw [lower_append, lower_append, hgap.lower_eq]
      exact .cons hgap hword.lower hrest.lower ih

/-- The words of a small form are the small forms of the words. -/
theorem words_lower (text : List Char) : words (lower text) = (words text).map lower :=
  (spaced_words text).lower.words_eq

/-- A word starts a comment if its small form does. -/
theorem head?_lower_eq_hash (word : List Char) :
    (lower word).head? = some '#' ↔ word.head? = some '#' := by
  cases word with
  | nil => exact Iff.rfl
  | cons c rest =>
      obtain ⟨d, more, hform⟩ := List.exists_cons_of_ne_nil (lowerChar_ne_nil c)
      have hd : d ∈ lowerChar c := by rw [hform]; exact List.mem_cons_self
      rw [lower_cons, hform, List.cons_append, List.head?_cons, List.head?_cons, Option.some.injEq,
        Option.some.injEq]
      exact (lowerForm c).eq_hash_iff hd

end MovieAtoms.Text
