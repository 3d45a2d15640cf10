import MovieAtoms.Proofs.Script.Grammar
import MovieAtoms.Proofs.Script.Lines

/-!
# Scripts that are printed and compiled again

The text of a script shows each tag in four visible characters, so it is not always the text of the
same script: a character that stands for a byte without a shape is taken for itself, a capital
comes back small, and a tag that shows a blank or starts with the sign of a comment is no name at
all. Main statements: `compile_text`, which says for every script what its text compiles to, and
`compile_text_of_compiled`, which says it for the scripts that come of a text. For these only
controls in a tag matter, as `compile_control` shows.
-/

namespace MovieAtoms

/-- The byte of the character that is read where a byte is shown. -/
def respelledByte (byte : UInt8) : UInt8 := (Text.shownByte byte).toLower.toUInt8

namespace Tag

/-- The tag that the shown text of a tag names. -/
def respelled (tag : Tag) : Tag :=
  ⟨respelledByte tag.first, respelledByte tag.second, respelledByte tag.third,
    respelledByte tag.fourth⟩

/-- The shown text is a word, and it starts no comment. -/
def Legible (tag : Tag) : Prop := ' ' ∉ tag.text.toList ∧ tag.text.toList.head? ≠ some '#'

instance : DecidablePred Legible := fun _ => inferInstanceAs (Decidable (_ ∧ _))

/-- All bytes are visible ASCII characters and no capitals, and the first is not the sign of a
    comment. -/
structure Plain (tag : Tag) : Prop where
  bytes : ∀ byte ∈ tag.toBytes, 0x21 ≤ byte ∧ byte ≤ 0x7E ∧ ¬(0x41 ≤ byte ∧ byte ≤ 0x5A)
  first : tag.first ≠ 0x23

/-- All bytes are ASCII characters, neither blanks nor capitals, and the first is not the sign of a
    comment. -/
structure Spellable (tag : Tag) : Prop where
  bytes : ∀ byte ∈ tag.toBytes, byte < 0x80 ∧ ¬(9 ≤ byte ∧ byte ≤ 13) ∧ byte ≠ 0x20 ∧
    ¬(0x41 ≤ byte ∧ byte ≤ 0x5A)
  first : tag.first ≠ 0x23

end Tag

def Directive.respelled (directive : Directive) : Directive :=
  ⟨directive.operation, directive.tag.respelled⟩

/-! ### Bytes that are shown -/

namespace Text

theorem isAscii_shownByte (byte : UInt8) : isAscii (shownByte byte) := by
  revert byte
  exact forall_byte (by decide +kernel)

theorem shownByte_ne_feed (byte : UInt8) : shownByte byte ≠ '\n' := by
  revert byte
  exact forall_byte (by decide +kernel)

theorem shownByte_eq_space (byte : UInt8) : shownByte byte = ' ' ↔ byte = 0x20 := by
  revert byte
  exact forall_byte (by decide +kernel)

theorem shownByte_eq_hash (byte : UInt8) : shownByte byte = '#' ↔ byte = 0x23 := by
  revert byte
  exact forall_byte (by decide +kernel)

theorem isAscii_toLower_shownByte (byte : UInt8) : isAscii (shownByte byte).toLower := by
  revert byte
  exact forall_byte (by decide +kernel)

/-- The space is the only blank that is shown. -/
theorem isBlank_toLower_shownByte (byte : UInt8) :
    isBlank (shownByte byte).toLower ↔ byte = 0x20 := by
  revert byte
  exact forall_byte (by decide +kernel)

theorem toLower_shownByte_eq_hash (byte : UInt8) :
    (shownByte byte).toLower = '#' ↔ byte = 0x23 := by
  revert byte
  exact forall_byte (by decide +kernel)

end Text

/-- A byte comes back as it was if it is shown as itself and is no capital. -/
theorem respelledByte_eq_self (byte : UInt8) :
    respelledByte byte = byte ↔ 0x20 ≤ byte ∧ byte ≤ 0x7E ∧ ¬(0x41 ≤ byte ∧ byte ≤ 0x5A) := by
  revert byte
  exact forall_byte (by decide +kernel)

namespace Tag

open Text

variable {tag : Tag}

theorem toList_text (tag : Tag) : tag.text.toList = tag.toBytes.map shownByte :=
  String.toList_ofList

theorem legible_iff :
    tag.Legible ↔ (∀ byte ∈ tag.toBytes, byte ≠ 0x20) ∧ tag.first ≠ 0x23 := by
  have hhead : tag.text.toList.head? = some (shownByte tag.first) := by
    rw [toList_text]
    rfl
  rw [Legible, hhead, toList_text, List.mem_map, Ne, Option.some.injEq, shownByte_eq_hash]
  simp only [shownByte_eq_space, not_exists, not_and]

theorem respelled_eq_self :
    tag.respelled = tag ↔ ∀ byte ∈ tag.toBytes, respelledByte byte = byte := by
  obtain ⟨a, b, c, d⟩ := tag
  simp [respelled, toBytes]

theorem plain_iff : tag.Plain ↔ tag.Legible ∧ tag.respelled = tag := by
  rw [legible_iff, respelled_eq_self]
  constructor
  · intro h
    refine ⟨⟨fun byte hbyte hspace => ?_, h.first⟩, fun byte hbyte => ?_⟩
    · exact absurd (h.bytes byte hbyte).1 (by rw [hspace]; decide)
    · obtain ⟨hleast, hgreatest, hsmall⟩ := h.bytes byte hbyte
      exact (respelledByte_eq_self byte).mpr
        ⟨UInt8.le_trans (by decide) hleast, hgreatest, hsmall⟩
  · rintro ⟨⟨hspace, hhash⟩, hsame⟩
    refine ⟨fun byte hbyte => ?_, hhash⟩
    obtain ⟨hleast, hgreatest, hsmall⟩ := (respelledByte_eq_self byte).mp (hsame byte hbyte)
    have hlt : 0x20 < byte :=
      UInt8.lt_of_le_of_ne hleast fun heq => hspace byte hbyte heq.symm
    exact ⟨hlt, hgreatest, hsmall⟩

end Tag

namespace Script

open Text

/-! ### Names -/

variable {directive : Directive} {tag : Tag} {name : List Char} {script : Script}

theorem lower_text (tag : Tag) :
    lower tag.text.toList = tag.toBytes.map fun byte => (shownByte byte).toLower := by
  rw [Tag.toList_text, lower_of_isAscii, List.map_map]
  · rfl
  · intro c hc
    obtain ⟨byte, -, rfl⟩ := List.mem_map.mp hc
    exact isAscii_shownByte byte

theorem tagOfName_lower_text (tag : Tag) :
    tagOfName (lower tag.text.toList) = .ok tag.respelled := by
  rw [lower_text]
  simp only [Tag.toBytes, List.map_cons, List.map_nil, tagOfName]
  rw [if_pos]
  · rfl
  · simp only [List.all_cons, List.all_nil, isAscii_toLower_shownByte, Bool.and_self]

theorem mem_beforeComment {words : List (List Char)} (h : name ∈ beforeComment words) :
    name ∈ words ∧ name.head? ≠ some '#' := by
  rw [beforeComment] at h
  have hkept := List.mem_takeWhile_imp h
  exact ⟨List.takeWhile_subset _ h, of_decide_eq_true hkept⟩

/-- A legible tag is shown as one word, and this word counts. -/
theorem beforeComment_of_legible (h : tag.Legible) :
    beforeComment (words (lower tag.text.toList)) = [lower tag.text.toList] := by
  obtain ⟨hblank, hhash⟩ := Tag.legible_iff.mp h
  have hword : ∀ c ∈ lower tag.text.toList, isBlank c = false := by
    intro c hc
    rw [lower_text] at hc
    obtain ⟨byte, hbyte, rfl⟩ := List.mem_map.mp hc
    exact Bool.eq_false_iff.mpr fun hspace =>
      hblank byte hbyte ((isBlank_toLower_shownByte byte).mp hspace)
  have hsome : lower tag.text.toList ≠ [] := by
    rw [lower_text]
    exact List.cons_ne_nil _ _
  have hhead : (lower tag.text.toList).head? ≠ some '#' := by
    rw [lower_text]
    intro hfirst
    exact hhash ((toLower_shownByte_eq_hash _).mp (Option.some.inj hfirst))
  rw [words_of_not_isBlank hsome hword, beforeComment, List.takeWhile_cons,
    if_pos (decide_eq_true hhead), List.takeWhile_nil]

/-- Of a tag that is not legible, no word that counts has all four characters. -/
theorem length_lt_of_not_legible (h : ¬tag.Legible)
    (hname : name ∈ beforeComment (words (lower tag.text.toList))) : name.length < 4 := by
  obtain ⟨hword, hhash⟩ := mem_beforeComment hname
  have hinfix := isInfix_of_mem_words hword
  have hlength : (lower tag.text.toList).length = 4 := by rw [lower_text]; rfl
  refine Nat.lt_of_le_of_ne (hlength ▸ hinfix.length_le) fun hfour => h ?_
  -- a word of all four characters is the whole text, which then has no blank
  obtain rfl := hinfix.eq_of_length (hfour.trans hlength.symm)
  have hblank := not_isBlank_of_mem_words hword
  rw [lower_text] at hblank hhash
  refine Tag.legible_iff.mpr ⟨fun byte hbyte hspace => ?_, fun hfirst => ?_⟩
  · have hnone := hblank _ (List.mem_map_of_mem hbyte)
    exact Bool.eq_false_iff.mp hnone ((isBlank_toLower_shownByte byte).mpr hspace)
  · exact hhash (congrArg some ((toLower_shownByte_eq_hash _).mpr hfirst))

/-! ### The line of a directive -/

theorem feed_not_mem_text (directive : Directive) : '\n' ∉ directive.text.toList := by
  have hkeywords : '\n' ∉ directive.operation.text.toList := by
    cases directive.operation <;> decide
  rw [Directive.text, String.toList_append, String.toList_append, Tag.toList_text, List.mem_append,
    List.mem_append]
  rintro ((hmem | hmem) | hmem)
  · exact hkeywords hmem
  · exact absurd hmem (by decide)
  · obtain ⟨byte, -, hbyte⟩ := List.mem_map.mp hmem
    exact shownByte_ne_feed byte hbyte

/-- The text of an operation asks for it. -/
theorem compileWords_text (operation : Operation) (rest : List (List Char)) :
    compileWords (beforeComment (words operation.text.toList ++ rest)) =
      (Script.directive operation (beforeComment rest)).map some := by
  have hwords : words operation.text.toList = operation.keywords := by
    cases operation <;> decide +kernel
  have hkept : ∀ keyword ∈ operation.keywords, decide (keyword.head? ≠ some '#') = true := by
    cases operation <;> decide
  rw [hwords, beforeComment, List.takeWhile_append_of_pos hkept, compileWords_keywords,
    beforeComment]

theorem compileLine_text (directive : Directive) :
    compileLine directive.text.toList =
      (Script.directive directive.operation
        (beforeComment (words (lower directive.tag.text.toList)))).map some := by
  have hkeywords : lower directive.operation.text.toList = directive.operation.text.toList := by
    cases directive.operation <;> decide
  have hblank : lower " ".toList = [' '] := by decide
  rw [compileLine, Directive.text, String.toList_append, String.toList_append, lower_append,
    lower_append, hkeywords, hblank, List.append_assoc, List.singleton_append,
    words_append_blank (by decide), compileWords_text]

theorem compileLine_text_of_legible (h : directive.tag.Legible) :
    compileLine directive.text.toList = .ok (some directive.respelled) := by
  rw [compileLine_text, beforeComment_of_legible h, Script.directive, tagOfName_lower_text]
  rfl

theorem compileLine_text_of_not_legible (h : ¬directive.tag.Legible) :
    ∃ mistake, (mistake = .wrongWordCount ∨ mistake = .badNameLength) ∧
      compileLine directive.text.toList = .error mistake := by
  rw [compileLine_text]
  have hshort : ∀ name ∈ beforeComment (words (lower directive.tag.text.toList)),
      name.length < 4 := fun name hname => length_lt_of_not_legible h hname
  match hwords : beforeComment (words (lower directive.tag.text.toList)) with
  | [] => exact ⟨_, Or.inl rfl, rfl⟩
  | _ :: _ :: _ => exact ⟨_, Or.inl rfl, rfl⟩
  | [name] =>
      have hname : name.length < 4 := hshort name (by rw [hwords]; exact List.mem_singleton_self _)
      refine ⟨.badNameLength, Or.inr rfl, ?_⟩
      match name, hname with
      | [], _ | [_], _ | [_, _], _ | [_, _, _], _ => rfl

/-! ### The text of a script -/

theorem map_respelled_eq_self :
    script.map Directive.respelled = script ↔
      ∀ directive ∈ script, directive.tag.respelled = directive.tag := by
  have hdirective : ∀ directive : Directive,
      directive.respelled = directive ↔ directive.tag.respelled = directive.tag := by
    rintro ⟨operation, tag⟩
    simp [Directive.respelled]
  simpa only [List.map_id, id, hdirective] using
    List.map_inj_left (l := script) (f := Directive.respelled) (g := id)

theorem ended_text (script : Script) : Ended (script.map (·.text.toList)) script.text.toList := by
  induction script with
  | nil => exact .nil
  | cons directive script ih =>
      have htext : (text (directive :: script)).toList =
          directive.text.toList ++ '\n' :: (text script).toList := by
        simp [text, String.toList_join]
      rw [htext]
      exact .feed (feed_not_mem_text directive) ih

/-- Each directive is compiled from its own line. -/
theorem compile_text_eq (script : Script) :
    compile script.text = compileFrom 1 (script.map (·.text.toList)) :=
  compileFrom_lines_of_ended (ended_text script) 1

theorem compile_text_of_legible (h : ∀ directive ∈ script, directive.tag.Legible) :
    compile script.text = .ok (script.map Directive.respelled) := by
  rw [compile_text_eq, compileFrom_ok_iff]
  refine ⟨script.map fun directive => some directive.respelled, ?_, ?_⟩
  · rw [List.map_map, List.map_map]
    exact List.map_congr_left fun directive hmem => compileLine_text_of_legible (h directive hmem)
  · rw [List.flatMap_map]
    exact List.map_eq_flatMap

theorem compile_text_of_not_legible (h : ∃ directive ∈ script, ¬directive.tag.Legible) :
    ∃ front directive rest mistake, script = front ++ directive :: rest ∧
      (∀ earlier ∈ front, earlier.tag.Legible) ∧ ¬directive.tag.Legible ∧
      (mistake = .wrongWordCount ∨ mistake = .badNameLength) ∧
      compile script.text =
        .error ⟨front.length + 1, String.ofList (trim directive.text.toList), mistake⟩ := by
  obtain ⟨directive, hdirective⟩ : ∃ directive,
      script.find? (fun directive => ¬directive.tag.Legible) = some directive := by
    rw [← Option.isSome_iff_exists, List.find?_isSome]
    simpa using h
  obtain ⟨hnot, front, rest, rfl, hfront⟩ := List.find?_eq_some_iff_append.mp hdirective
  have hnot : ¬directive.tag.Legible := of_decide_eq_true hnot
  have hfront : ∀ earlier ∈ front, earlier.tag.Legible := by simpa using hfront
  obtain ⟨mistake, hmistake, hline⟩ := compileLine_text_of_not_legible hnot
  refine ⟨front, directive, rest, mistake, rfl, hfront, hnot, hmistake, ?_⟩
  have hearlier : ∀ line ∈ front.map (·.text.toList), ∃ asked, compileLine line = .ok asked := by
    intro line hmem
    obtain ⟨earlier, hearlier, rfl⟩ := List.mem_map.mp hmem
    exact ⟨_, compileLine_text_of_legible (hfront earlier hearlier)⟩
  rw [compile_text_eq, List.map_append, List.map_cons, compileFrom_append_error hearlier hline,
    List.length_map, Nat.add_comm]

/-- What the text of a script compiles to. The text of plain tags is the text of the same script,
    legible tags come back in small letters and with full stops for what has no shape, and the first
    directive of any other tag is a mistake. -/
theorem compile_text (script : Script) :
    (compile script.text = .ok script ↔ ∀ directive ∈ script, directive.tag.Plain) ∧
    ((∀ directive ∈ script, directive.tag.Legible) →
      compile script.text = .ok (script.map Directive.respelled)) ∧
    ((∃ directive ∈ script, ¬directive.tag.Legible) →
      ∃ front directive rest mistake, script = front ++ directive :: rest ∧
        (∀ earlier ∈ front, earlier.tag.Legible) ∧ ¬directive.tag.Legible ∧
        (mistake = .wrongWordCount ∨ mistake = .badNameLength) ∧
        compile script.text =
          .error ⟨front.length + 1, String.ofList (trim directive.text.toList), mistake⟩) := by
  refine ⟨⟨fun h => ?_, fun h => ?_⟩, compile_text_of_legible, compile_text_of_not_legible⟩
  · have hlegible : ∀ directive ∈ script, directive.tag.Legible := by
      refine Classical.byContradiction fun hnot => ?_
      have hsome : ∃ directive ∈ script, ¬directive.tag.Legible := by simpa using hnot
      obtain ⟨_, _, _, _, _, _, _, _, herror⟩ := compile_text_of_not_legible hsome
      rw [h] at herror
      cases herror
    rw [compile_text_of_legible hlegible, Except.ok.injEq] at h
    exact fun directive hmem =>
      Tag.plain_iff.mpr ⟨hlegible directive hmem, map_respelled_eq_self.mp h directive hmem⟩
  · have hplain := fun directive hmem => Tag.plain_iff.mp (h directive hmem)
    rw [compile_text_of_legible fun directive hmem => (hplain directive hmem).1,
      map_respelled_eq_self.mpr fun directive hmem => (hplain directive hmem).2]

theorem compile_text_mixed :
    compile (text [⟨.read, ⟨0x4D, 0x6F, 0x6F, 0x76⟩⟩, ⟨.stepInto, ⟨0xA9, 0x6E, 0x61, 0x6D⟩⟩]) =
      .ok [⟨.read, ⟨0x6D, 0x6F, 0x6F, 0x76⟩⟩, ⟨.stepInto, ⟨0x2E, 0x6E, 0x61, 0x6D⟩⟩] :=
  (compile_text _).2.1 (by decide +kernel)

/-! ### Scripts that come of a text -/

/-- The byte of a character that can stand in a word. -/
theorem toUInt8_of_word {c : Char} (hascii : isAscii c) (hblank : isBlank c = false)
    (hsmall : ¬(0x41 ≤ c.toNat ∧ c.toNat ≤ 0x5A)) :
    c.toUInt8 < 0x80 ∧ ¬(9 ≤ c.toUInt8 ∧ c.toUInt8 ≤ 13) ∧ c.toUInt8 ≠ 0x20 ∧
      ¬(0x41 ≤ c.toUInt8 ∧ c.toUInt8 ≤ 0x5A) := by
  have hblanks : ¬(9 ≤ c.toUInt8 ∧ c.toUInt8 ≤ 13) ∧ c.toUInt8 ≠ 0x20 :=
    forall_isAscii (p := fun c => isBlank c = false →
      ¬(9 ≤ c.toUInt8 ∧ c.toUInt8 ≤ 13) ∧ c.toUInt8 ≠ 0x20) (by decide +kernel) hascii hblank
  have hcapitals : ¬(0x41 ≤ c.toUInt8 ∧ c.toUInt8 ≤ 0x5A) :=
    forall_isAscii (p := fun c => ¬(0x41 ≤ c.toNat ∧ c.toNat ≤ 0x5A) →
      ¬(0x41 ≤ c.toUInt8 ∧ c.toUInt8 ≤ 0x5A)) (by decide +kernel) hascii hsmall
  have hbyte : c.toUInt8 < 0x80 :=
    forall_isAscii (p := fun c => c.toUInt8 < 0x80) (by decide +kernel) hascii
  exact ⟨hbyte, hblanks.1, hblanks.2, hcapitals⟩

theorem toUInt8_eq_hash {c : Char} (hascii : isAscii c) (h : c.toUInt8 = 0x23) : c = '#' :=
  forall_isAscii (p := fun c => c.toUInt8 = 0x23 → c = '#') (by decide +kernel) hascii h

theorem spellable_of_compileLine_eq_ok {line : List Char}
    (h : compileLine line = .ok (some directive)) : directive.tag.Spellable := by
  obtain ⟨name, hwords, hspells⟩ := compileWords_eq_ok_some.mp h
  have hname : name ∈ beforeComment (words (lower line)) := by
    rw [hwords]
    exact List.mem_append_right _ (List.mem_singleton_self _)
  obtain ⟨hword, hhash⟩ := mem_beforeComment hname
  have hbytes := hspells.bytes
  refine ⟨fun byte hbyte => ?_, fun hfirst => ?_⟩
  · rw [hbytes] at hbyte
    obtain ⟨c, hc, rfl⟩ := List.mem_map.mp hbyte
    have hlower : c ∈ lower line := (isInfix_of_mem_words hword).subset hc
    exact toUInt8_of_word (hspells.ascii c hc) (not_isBlank_of_mem_words hword c hc)
      (not_capital_of_mem_lower hlower)
  · cases name with
    | nil => cases hbytes
    | cons c rest =>
        have hc : directive.tag.first = c.toUInt8 := (List.cons.inj hbytes).1
        have hascii := hspells.ascii c List.mem_cons_self
        exact hhash (congrArg some (toUInt8_eq_hash hascii (hc.symm.trans hfirst)))

theorem spellable_of_compile_eq_ok {text : String} (h : compile text = .ok script) :
    ∀ directive ∈ script, directive.tag.Spellable := by
  obtain ⟨asked, hasked, rfl⟩ := (compileFrom_ok_iff _ _ _).mp h
  intro directive hmem
  obtain ⟨_, hsome, hdirective⟩ := List.mem_flatMap.mp hmem
  obtain rfl := Option.mem_toList.mp hdirective
  have hline : Except.ok (some directive) ∈ (lines text.toList).map compileLine := by
    rw [hasked]
    exact List.mem_map_of_mem hsome
  obtain ⟨line, -, hcompile⟩ := List.mem_map.mp hline
  exact spellable_of_compileLine_eq_ok hcompile

theorem respelledByte_of_spellable (byte : UInt8) (hascii : byte < 0x80)
    (hsmall : ¬(0x41 ≤ byte ∧ byte ≤ 0x5A)) :
    respelledByte byte = if byte < 0x20 ∨ byte = 0x7F then 0x2E else byte := by
  revert byte
  exact forall_byte (by decide +kernel)

/-- A script that comes of a text has a text that compiles, to the same operations, and to the same
    tags but for their controls, which come back as full stops. -/
theorem compile_text_of_compiled {text : String} {script : Script}
    (h : compile text = .ok script) :
    compile script.text = .ok (script.map Directive.respelled) ∧
    (∀ directive ∈ script, ∀ byte ∈ directive.tag.toBytes,
      respelledByte byte = if byte < 0x20 ∨ byte = 0x7F then 0x2E else byte) ∧
    (compile script.text = .ok script ↔
      ∀ directive ∈ script, ∀ byte ∈ directive.tag.toBytes, 0x20 ≤ byte ∧ byte ≠ 0x7F) := by
  have hspellable := spellable_of_compile_eq_ok h
  have hcompile : compile script.text = .ok (script.map Directive.respelled) := by
    refine compile_text_of_legible fun directive hmem => Tag.legible_iff.mpr ⟨?_, ?_⟩
    · exact fun byte hbyte => ((hspellable directive hmem).bytes byte hbyte).2.2.1
    · exact (hspellable directive hmem).first
  have hcontrols : ∀ directive ∈ script, ∀ byte ∈ directive.tag.toBytes,
      respelledByte byte = if byte < 0x20 ∨ byte = 0x7F then 0x2E else byte := by
    intro directive hmem byte hbyte
    obtain ⟨hascii, -, -, hsmall⟩ := (hspellable directive hmem).bytes byte hbyte
    exact respelledByte_of_spellable byte hascii hsmall
  have hstop : ∀ byte : UInt8,
      (if byte < 0x20 ∨ byte = 0x7F then 0x2E else byte) = byte ↔ 0x20 ≤ byte ∧ byte ≠ 0x7F :=
    forall_byte (by decide +kernel)
  refine ⟨hcompile, hcontrols, ?_⟩
  rw [hcompile, Except.ok.injEq, map_respelled_eq_self]
  refine forall₂_congr fun directive hmem => ?_
  rw [Tag.respelled_eq_self]
  refine forall₂_congr fun byte hbyte => ?_
  rw [hcontrols directive hmem byte hbyte]
  exact hstop byte

theorem compile_text_of_compiled_control :
    compile "skip \u0007MOV" = .ok [⟨.skip, ⟨7, 0x6D, 0x6F, 0x76⟩⟩] ∧
    compile (text [⟨.skip, ⟨7, 0x6D, 0x6F, 0x76⟩⟩]) = .ok [⟨.skip, ⟨0x2E, 0x6D, 0x6F, 0x76⟩⟩] := by
  have h : compile "skip \u0007MOV" = .ok [⟨.skip, ⟨7, 0x6D, 0x6F, 0x76⟩⟩] := by decide +kernel
  exact ⟨h, (compile_text_of_compiled h).1⟩

/-- A tag with a control is accepted, and the text of its script is that of another one. -/
theorem compile_control :
    ¬∀ (text : String) (script : Script), compile text = .ok script →
      compile script.text = .ok script := by
  intro h
  have hcompile : compile "read \u0001abc" = .ok [⟨.read, ⟨1, 0x61, 0x62, 0x63⟩⟩] := by
    decide +kernel
  have hagain : compile (text [⟨.read, ⟨1, 0x61, 0x62, 0x63⟩⟩]) =
      .ok [⟨.read, ⟨0x2E, 0x61, 0x62, 0x63⟩⟩] := by
    decide +kernel
  rw [h _ _ hcompile] at hagain
  revert hagain
  decide

end Script

end MovieAtoms
