import MovieAtoms.Decimal.Fixed
import MovieAtoms.Text.Ascii
import MovieAtoms.Text.Hex
import MovieAtoms.Text.Quoted

/-!
# Texts without controls

A text is tame when no character of it is a control of ASCII, so it does not leave its line and does
not steer the terminal that it is shown on. Literals are tame by evaluation; numbers, shown bytes and
quoted texts are tame whatever they stand for. Main statement: `isTame_quoted`, since a quoted text
may come from anywhere.
-/

namespace MovieAtoms.Text

/-- A control character of ASCII. -/
def isControl (c : Char) : Bool := c.toNat < 0x20 || c.toNat == 0x7F

def isTame (text : List Char) : Bool := text.all fun c => !isControl c

variable {text : List Char}

theorem isTame_iff : isTame text ↔ ∀ c ∈ text, isControl c = false := by
  simp [isTame]

/-! ### Putting tame texts together -/

@[simp] theorem isTame_append (front rest : List Char) :
    isTame (front ++ rest) = (isTame front && isTame rest) := List.all_append

@[simp] theorem isTame_cons (c : Char) (rest : List Char) :
    isTame (c :: rest) = (!isControl c && isTame rest) := rfl

@[simp] theorem isTame_nil : isTame [] = true := rfl

theorem isTame_toList_append {front rest : String} (hfront : isTame front.toList)
    (hrest : isTame rest.toList) : isTame (front ++ rest).toList := by
  rw [String.toList_append, isTame_append, hfront, hrest]
  rfl

theorem isTame_flatMap {items : List α} {f : α → List Char} (h : ∀ item ∈ items, isTame (f item)) :
    isTame (items.flatMap f) := by
  rw [isTame_iff]
  intro c hc
  obtain ⟨item, hitem, hmem⟩ := List.mem_flatMap.mp hc
  exact isTame_iff.mp (h item hitem) c hmem

theorem forall_mem_intercalate {p : Char → Prop} {separator : List Char} {texts : List (List Char)}
    (hseparator : ∀ c ∈ separator, p c) (h : ∀ text ∈ texts, ∀ c ∈ text, p c) :
    ∀ c ∈ separator.intercalate texts, p c := by
  induction texts with
  | nil => simp
  | cons first others ih =>
      obtain ⟨hfirst, hothers⟩ := List.forall_mem_cons.mp h
      cases others with
      | nil => simpa [List.intercalate] using hfirst
      | cons second others =>
          rw [List.intercalate_cons_cons]
          intro c hc
          rcases List.mem_append.mp hc with hfront | hrest
          · exact (List.mem_append.mp hfront).elim (hfirst c) (hseparator c)
          · exact ih hothers c hrest

theorem isTame_intercalate {separator : List Char} {texts : List (List Char)}
    (hseparator : isTame separator) (h : ∀ text ∈ texts, isTame text) :
    isTame (separator.intercalate texts) := by
  rw [isTame_iff] at hseparator ⊢
  exact forall_mem_intercalate hseparator fun text htext => isTame_iff.mp (h text htext)

theorem isTame_replicate {fill : Char} (count : Nat) (hfill : isControl fill = false) :
    isTame (List.replicate count fill) := by
  rw [isTame_iff]
  intro c hc
  rw [List.eq_of_mem_replicate hc]
  exact hfill

theorem isTame_padLeft {fill : Char} (width : Nat) (hfill : isControl fill = false)
    (h : isTame text) : isTame (Decimal.padLeft width fill text) := by
  rw [Decimal.padLeft, isTame_append, isTame_replicate _ hfill, h]
  rfl

/-! ### Numbers -/

/-- The characters of a number in digits are the digits of its base. -/
theorem exists_digit_of_mem_toDigits {base number : Nat} {c : Char} (hbase : 1 < base)
    (h : c ∈ Nat.toDigits base number) : ∃ digit < base, c = Nat.digitChar digit := by
  induction number using Nat.strongRecOn with
  | ind number ih =>
      rw [Nat.toDigits_eq_if hbase] at h
      split at h
      · rename_i hsmall
        exact ⟨number, hsmall, List.mem_singleton.mp h⟩
      · rename_i hlarge
        rcases List.mem_append.mp h with hfront | hlast
        · exact ih _ (Nat.div_lt_self (by omega) hbase) hfront
        · exact ⟨number % base, Nat.mod_lt _ (by omega), List.mem_singleton.mp hlast⟩

/-- Neither the digits up to sixteen nor their capital forms are controls. -/
theorem not_isControl_digitChar : ∀ digit < 16,
    isControl (Nat.digitChar digit) = false ∧ isControl (Nat.digitChar digit).toUpper = false := by
  decide

theorem isTame_toDigits {base : Nat} (number : Nat) (hbase : 1 < base) (hle : base ≤ 16) :
    isTame (Nat.toDigits base number) := by
  rw [isTame_iff]
  intro c hc
  obtain ⟨digit, hdigit, rfl⟩ := exists_digit_of_mem_toDigits hbase hc
  exact (not_isControl_digitChar digit (Nat.lt_of_lt_of_le hdigit hle)).1

@[simp] theorem isTame_toString (number : Nat) : isTame (toString number).toList := by
  change isTame (Nat.repr number).toList
  rw [Nat.repr_eq_ofList_toDigits, String.toList_ofList]
  exact isTame_toDigits number (by decide) (by decide)

@[simp] theorem isTame_padded (width number : Nat) : isTame (Decimal.padded width number) :=
  isTame_padLeft width rfl (isTame_toDigits number (by decide) (by decide))

@[simp] theorem isTame_fixed (places numerator denominator : Nat) :
    isTame (Decimal.fixed places numerator denominator).toList := by
  rw [Decimal.fixed, String.toList_ofList, isTame_append, isTame_cons, isTame_padded,
    isTame_toDigits _ (by decide) (by decide)]
  rfl

@[simp] theorem isTame_capitals (width number : Nat) : isTame (Hex.capitals width number) := by
  apply isTame_padLeft width rfl
  rw [isTame_iff]
  intro c hc
  obtain ⟨digitChar, hmem, rfl⟩ := List.mem_map.mp hc
  obtain ⟨digit, hdigit, rfl⟩ := exists_digit_of_mem_toDigits (by decide) hmem
  exact (not_isControl_digitChar digit hdigit).2

/-! ### Bytes -/

theorem isTame_ofByte (byte : UInt8) : isTame (Hex.ofByte byte) := by
  revert byte
  exact forall_byte (by decide +kernel)

@[simp] theorem isTame_shown (bytes : Bytes) : isTame (shown bytes) := by
  have hbyte : ∀ byte, isControl (shownByte byte) = false := forall_byte (by decide +kernel)
  rw [isTame_iff]
  intro c hc
  obtain ⟨byte, -, rfl⟩ := List.mem_map.mp hc
  exact hbyte byte

/-! ### Quoted texts -/

/-- Controls are among the characters that quoted texts show by their code points. -/
theorem isShapeless_of_isControl {c : Char} (h : isControl c) : isShapeless c := by
  simp only [isControl, Bool.or_eq_true, decide_eq_true_eq, beq_iff_eq] at h
  rw [isShapeless, inRanges, List.any_eq_true]
  rcases h with hlow | hdelete
  · refine ⟨(0x0, 0x1F), .head _, decide_eq_true ⟨Nat.zero_le _, ?_⟩⟩
    omega
  · refine ⟨(0x7F, 0xA0), .tail _ (.head _), decide_eq_true ⟨?_, ?_⟩⟩ <;> omega

@[simp] theorem isTame_codePoint (c : Char) : isTame (codePoint c) := by
  rw [codePoint, isTame_append, isTame_append, isTame_toDigits _ (by decide) (by decide)]
  rfl

theorem isTame_quoteChar (c : Char) : isTame (quoteChar c) := by
  unfold quoteChar
  -- six characters have escapes of their own, and these are literals
  iterate 6 (split; rfl)
  split
  · exact isTame_codePoint c
  · rename_i hshape
    rw [isTame_iff]
    intro d hd
    obtain rfl := List.mem_singleton.mp hd
    exact Bool.eq_false_iff.mpr fun h => hshape (isShapeless_of_isControl h)

/-- A quoted text is tame, whatever the text holds. -/
@[simp] theorem isTame_quoted (text : String) : isTame (quoted text).toList := by
  rw [quoted, String.toList_ofList, isTame_append, isTame_cons,
    isTame_flatMap fun c _ => isTame_quoteChar c]
  rfl

end MovieAtoms.Text
