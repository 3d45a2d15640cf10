import MovieAtoms.Proofs.Script.Lines

/-!
# Names as they are written

The name of an atom is checked in its small form, and a line can write it in another one. `Names`
reads the name off the line as it stands there. Main statement: `compile_names`, by which exactly the
names of four characters pass, each an ASCII character or the Kelvin sign, which is read as the
letter `k`. `compile_kelvin` is a script with a name that is not ASCII as it is written.
-/

namespace MovieAtoms.Script

open Text

/-- The line writes the keywords of an operation, in any capitals, and behind them this name. -/
def Names (line name : List Char) : Prop :=
  ∃ (operation : Operation) (keywords : List (List Char)),
    beforeComment (words line) = keywords ++ [name] ∧ keywords.map lower = operation.keywords

/-- A name that passes for four ASCII characters. -/
structure Passes (name : List Char) : Prop where
  length : name.length = 4
  nearAscii : ∀ c ∈ name, isAscii c ∨ c = kelvinSign

variable {line name other : List Char}

theorem passes_iff : Passes name ↔ ∃ tag, Spells (lower name) tag := by
  constructor
  · intro h
    have hascii : ∀ c ∈ lower name, isAscii c := isAscii_lower_iff.mpr h.nearAscii
    have hlength : (lower name).length = 4 := (length_lower hascii).trans h.length
    obtain ⟨tag, hbytes, -⟩ := tagOfName_of_length_eq hlength
    exact ⟨tag, hlength, hascii, hbytes⟩
  · rintro ⟨tag, h⟩
    exact ⟨(length_lower h.ascii).symm.trans h.length, isAscii_lower_iff.mp h.ascii⟩

/-- A comment takes the same words away whatever the capitals. -/
theorem beforeComment_map_lower (words : List (List Char)) :
    beforeComment (words.map lower) = (beforeComment words).map lower := by
  rw [beforeComment, beforeComment, List.takeWhile_map]
  simp only [Function.comp_def, ne_eq, head?_lower_eq_hash]

theorem compileLine_eq_small (line : List Char) :
    compileLine line = compileWords ((beforeComment (words line)).map lower) := by
  rw [compileLine, words_lower, beforeComment_map_lower]

theorem Names.unique (hname : Names line name) (hother : Names line other) : name = other := by
  obtain ⟨_, keywords, hline, -⟩ := hname
  obtain ⟨_, keywords', hline', -⟩ := hother
  exact List.singleton_inj.mp (List.append_inj' (hline.symm.trans hline') rfl).2

/-- A line with a name is not idle. -/
theorem Names.not_isIdle (h : Names line name) : ¬isIdle line := by
  obtain ⟨_, keywords, hline, -⟩ := h
  rw [← compileLine_eq_ok_none, compileLine_eq_small, compileWords_eq_ok_none, hline,
    List.map_eq_nil_iff]
  exact List.append_ne_nil_of_right_ne_nil _ (List.cons_ne_nil _ _)

/-- A line asks for a directive if it writes a name that passes. -/
theorem exists_directive_iff :
    (∃ directive, compileLine line = .ok (some directive)) ↔
      ∃ name, Names line name ∧ Passes name := by
  simp only [compileLine_eq_small, compileWords_eq_ok_some, passes_iff]
  constructor
  · rintro ⟨directive, small, hwords, hspells⟩
    obtain ⟨keywords, others, hline, hkeywords, hothers⟩ := List.map_eq_append_iff.mp hwords
    obtain ⟨name, rfl, rfl⟩ := List.map_eq_singleton_iff.mp hothers
    exact ⟨name, ⟨directive.operation, keywords, hline, hkeywords⟩, directive.tag, hspells⟩
  · rintro ⟨name, ⟨operation, keywords, hline, hkeywords⟩, tag, hspells⟩
    refine ⟨⟨operation, tag⟩, lower name, ?_, hspells⟩
    rw [hline, List.map_append, hkeywords, List.map_singleton]

theorem exists_asked_iff :
    (∃ asked, compileLine line = .ok asked) ↔
      isIdle line ∨ ∃ name, Names line name ∧ Passes name := by
  rw [← compileLine_eq_ok_none, ← exists_directive_iff]
  exact Option.exists

/-- A text compiles exactly if each line is idle or writes a name that passes. So a line whose name
    does not pass is a mistake, wherever it stands. -/
theorem compile_names (text : String) :
    ((∃ script, compile text = .ok script) ↔
      ∀ line ∈ lines text.toList, isIdle line ∨ ∃ name, Names line name ∧ Passes name) ∧
    ((∃ line ∈ lines text.toList, ∃ name, Names line name ∧ ¬Passes name) →
      ∃ error, compile text = .error error) := by
  have hcompiles : (∃ script, compile text = .ok script) ↔
      ∀ line ∈ lines text.toList, isIdle line ∨ ∃ name, Names line name ∧ Passes name := by
    simp only [compile, exists_compileFrom_eq_ok, exists_asked_iff]
  refine ⟨hcompiles, ?_⟩
  rintro ⟨line, hline, name, hname, hfails⟩
  cases houtcome : compile text with
  | error error => exact ⟨error, rfl⟩
  | ok script =>
      rcases hcompiles.mp ⟨script, houtcome⟩ line hline with hidle | ⟨passing, hpassing, hpasses⟩
      · exact absurd hidle hname.not_isIdle
      · exact absurd (hname.unique hpassing ▸ hpasses) hfails

theorem compile_names_accent : ∃ error, compile "read moov\nskip caf\u00E9" = .error error := by
  have hline : "skip caf\u00E9".toList ∈ lines "read moov\nskip caf\u00E9".toList := by
    decide +kernel
  have hwords : beforeComment (words "skip caf\u00E9".toList) =
      ["skip".toList] ++ ["caf\u00E9".toList] := by
    decide +kernel
  have hfails : ¬Passes "caf\u00E9".toList := fun h =>
    absurd (h.nearAscii '\u00E9' (by decide)) (by decide)
  exact (compile_names _).2
    ⟨_, hline, _, ⟨.skip, ["skip".toList], hwords, by decide⟩, hfails⟩

/-- The Kelvin sign passes for the last letter of `trak`. -/
theorem compile_kelvin :
    ¬∀ (text : String) (script : Script), compile text = .ok script →
      ∀ line ∈ lines text.toList, ∀ name, Names line name →
        name.length = 4 ∧ ∀ c ∈ name, isAscii c := by
  intro h
  have hcompile : compile "skip tra\u212A" = .ok [⟨.skip, ⟨0x74, 0x72, 0x61, 0x6B⟩⟩] := by
    decide +kernel
  have hline : "skip tra\u212A".toList ∈ lines "skip tra\u212A".toList := by decide +kernel
  have hwords : beforeComment (words "skip tra\u212A".toList) =
      ["skip".toList] ++ ["tra\u212A".toList] := by
    decide +kernel
  have hname : Names "skip tra\u212A".toList "tra\u212A".toList :=
    ⟨.skip, ["skip".toList], hwords, by decide⟩
  have hascii := (h _ _ hcompile _ hline _ hname).2 kelvinSign (by decide)
  exact absurd hascii (by decide)

end MovieAtoms.Script
