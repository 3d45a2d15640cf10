import Mathlib.Algebra.GroupWithZero.Nat
import Mathlib.Data.List.Forall2
import MovieAtoms.HexDump
import MovieAtoms.Proofs.Text.Digits
import MovieAtoms.Proofs.Text.Tame

/-!
# The rows of a dump

`IsRow` says what stands in a row without mention of how it is put together. Main statements:
`isRow_of_getElem?`, by which the rows of a dump are the rows of its bytes, sixteen to each, and
`idxOf_bar`, by which the bars of all rows stand below each other as long as eight digits are enough
for the offset.
-/

namespace MovieAtoms.HexDump

open Text

/-! ### What a row shows -/

def smallDigits : List Char := "0123456789abcdef".toList

/-- A position in small hexadecimal digits, with zeros in front if it has less than eight. -/
structure IsOffset (position : Nat) (digits : List Char) : Prop where
  number : numberOf? 16 digits = some position
  small : ∀ c ∈ digits, c ∈ smallDigits
  length : digits.length = max 8 (Nat.toDigits 16 position).length

/-- A byte in two small hexadecimal digits. -/
structure IsPair (byte : UInt8) (digits : List Char) : Prop where
  number : numberOf? 16 digits = some byte.toNat
  small : ∀ c ∈ digits, c ∈ smallDigits
  length : digits.length = 2

/-- The offset, the pairs of the bytes filled up with spaces to the columns of sixteen pairs, and the
    bytes as visible text between bars. -/
def IsRow (position : Nat) (bytes : Bytes) (row : List Char) : Prop :=
  ∃ (digits : List Char) (pairs : List (List Char)) (filling : List Char),
    IsOffset position digits ∧ List.Forall₂ IsPair bytes pairs ∧ (∀ c ∈ filling, c = ' ') ∧
      ([' '].intercalate pairs ++ filling).length = 47 ∧
      row = digits ++ "  ".toList ++ ([' '].intercalate pairs ++ filling) ++ "  |".toList ++
        shown bytes ++ ['|']

theorem digitChar_mem_smallDigits : ∀ digit < 16, Nat.digitChar digit ∈ smallDigits := by
  decide

theorem small_of_mem_offset {position : Nat} {c : Char} (h : c ∈ offset position) :
    c ∈ smallDigits := by
  rw [offset, Decimal.padLeft, List.mem_append] at h
  rcases h with hzero | hdigit
  · rw [List.eq_of_mem_replicate hzero]
    decide
  · obtain ⟨digit, hlt, rfl⟩ := exists_digit_of_mem_toDigits (by decide) hdigit
    exact digitChar_mem_smallDigits digit hlt

theorem isOffset_offset (position : Nat) : IsOffset position (offset position) where
  number := numberOf?_padLeft (by decide) (by decide) 8 position
  small := fun _ => small_of_mem_offset
  length := length_padLeft 8 '0' _

theorem digit_mem_smallDigits : ∀ value < 16, Hex.digit value ∈ smallDigits := by
  decide

theorem isPair_ofByte (byte : UInt8) : IsPair byte (Hex.ofByte byte) where
  number := by
    have hbyte := byte.toNat_lt
    have hhigh : Hex.value? (Hex.digit (byte.toNat / 16)) = some (byte.toNat / 16) :=
      Hex.value?_digit (by omega)
    have hlow : Hex.value? (Hex.digit (byte.toNat % 16)) = some (byte.toNat % 16) :=
      Hex.value?_digit (by omega)
    have hless : byte.toNat / 16 < 16 := by omega
    have hmod : byte.toNat % 16 < 16 := by omega
    simp [numberOf?, Hex.ofByte, hhigh, hlow, hless, hmod]
    omega
  small := by
    have hbyte := byte.toNat_lt
    simp only [Hex.ofByte, List.forall_mem_cons]
    exact ⟨digit_mem_smallDigits _ (by omega), digit_mem_smallDigits _ (by omega),
      List.forall_mem_nil _⟩
  length := rfl

theorem forall₂_isPair (bytes : Bytes) : List.Forall₂ IsPair bytes (bytes.map Hex.ofByte) := by
  rw [List.forall₂_map_right_iff, List.forall₂_same]
  intro byte _
  exact isPair_ofByte byte

theorem pairs_cons_cons (byte next : UInt8) (rest : Bytes) :
    pairs (byte :: next :: rest) = Hex.ofByte byte ++ ' ' :: pairs (next :: rest) := by
  rw [pairs, List.map_cons, List.map_cons, List.intercalate_cons_cons, List.append_assoc]
  rfl

theorem length_pairs (bytes : Bytes) : (pairs bytes).length = 3 * bytes.length - 1 := by
  induction bytes with
  | nil => rfl
  | cons byte rest ih =>
      cases rest with
      | nil => rfl
      | cons next rest =>
          rw [pairs_cons_cons, List.length_append, List.length_cons, ih,
            (isPair_ofByte byte).length]
          simp only [List.length_cons]
          omega

/-- The columns of sixteen pairs are filled whatever the number of pairs is. -/
theorem length_padRight_pairs {bytes : Bytes} (h : bytes.length ≤ rowWidth) :
    (padRight pairsWidth (pairs bytes)).length = 47 := by
  rw [rowWidth] at h
  rw [padRight, List.length_append, List.length_replicate, length_pairs, pairsWidth, rowWidth]
  omega

theorem isRow_row {position : Nat} {bytes : Bytes} (h : bytes.length ≤ rowWidth) :
    IsRow position bytes (row position bytes).toList := by
  refine ⟨offset position, bytes.map Hex.ofByte,
    List.replicate (pairsWidth - (pairs bytes).length) ' ', isOffset_offset position,
    forall₂_isPair bytes, fun c hc => List.eq_of_mem_replicate hc, length_padRight_pairs h, ?_⟩
  rw [row, String.toList_ofList]
  rfl

/-! ### Where the bars stand -/

theorem ne_bar_of_mem_pairs {bytes : Bytes} {pairs : List (List Char)}
    (h : List.Forall₂ IsPair bytes pairs) : ∀ pair ∈ pairs, ∀ c ∈ pair, c ≠ '|' := by
  induction h with
  | nil => simp
  | cons hpair _ ih =>
      refine List.forall_mem_cons.mpr ⟨?_, ih⟩
      intro c hc
      exact ne_of_mem_of_not_mem (hpair.small c hc) (by decide)

/-- Eight digits are enough for positions below 2 ^ 32. -/
theorem IsOffset.length_eq {position : Nat} {digits : List Char} (h : IsOffset position digits)
    (hposition : position < 2 ^ 32) : digits.length = 8 := by
  have hle : (Nat.toDigits 16 position).length ≤ 8 :=
    (Nat.length_toDigits_le_iff (by decide) (by decide)).mpr hposition
  rw [h.length]
  omega

/-- The first bar of a row stands behind the offset, the pairs and two spaces for each of them. -/
theorem IsRow.idxOf_bar {position : Nat} {bytes : Bytes} {row : List Char}
    (h : IsRow position bytes row) (hposition : position < 2 ^ 32) : row.idxOf '|' = 59 := by
  obtain ⟨digits, pairs, filling, hoffset, hpairs, hfilling, hlength, rfl⟩ := h
  let front := digits ++ "  ".toList ++ ([' '].intercalate pairs ++ filling) ++ "  ".toList
  have hspaces : ∀ c ∈ "  ".toList, c ≠ '|' := by
    simp
  have hspace : ∀ c ∈ [' '], c ≠ '|' := by
    simp
  have hfront : ∀ c ∈ front, c ≠ '|' := by
    simp only [front, List.forall_mem_append]
    refine ⟨⟨⟨?_, hspaces⟩, forall_mem_intercalate hspace (ne_bar_of_mem_pairs hpairs), ?_⟩, hspaces⟩
    · intro c hc
      exact ne_of_mem_of_not_mem (hoffset.small c hc) (by decide)
    · intro c hc
      rw [hfilling c hc]
      decide
  have hcolumns : front.length = 59 := by
    have hgap : "  ".toList.length = 2 := rfl
    simp only [front, List.length_append, hoffset.length_eq hposition, hgap] at hlength ⊢
    omega
  have hrow : digits ++ "  ".toList ++ ([' '].intercalate pairs ++ filling) ++ "  |".toList ++
      shown bytes ++ ['|'] = front ++ '|' :: (shown bytes ++ ['|']) := by
    simp [front]
  rw [hrow, List.idxOf_append_of_notMem fun hmem => hfront '|' hmem rfl, List.idxOf_cons_self, hcolumns]

/-! ### Rows are tame -/

theorem isTame_pairs (bytes : Bytes) : isTame (pairs bytes) := by
  apply isTame_intercalate rfl
  intro pair hpair
  obtain ⟨byte, -, rfl⟩ := List.mem_map.mp hpair
  exact isTame_ofByte byte

theorem isTame_row (position : Nat) (bytes : Bytes) : isTame (row position bytes).toList := by
  have hoffset : isTame (offset position) :=
    isTame_padLeft 8 rfl (isTame_toDigits position (by decide) (by decide))
  have hpairs : isTame (padRight pairsWidth (pairs bytes)) := by
    rw [padRight, isTame_append, isTame_pairs, isTame_replicate _ rfl]
    rfl
  unfold row
  simp only [String.toList_ofList, isTame_append, hoffset, hpairs, isTame_shown]
  decide

theorem isTame_of_mem_rows {position : Nat} {bytes : Bytes} {line : String}
    (h : line ∈ rows position bytes) : isTame line.toList := by
  induction position, bytes using rows.induct with
  | case1 position bytes hempty =>
      rw [rows, if_pos hempty] at h
      cases h
  | case2 position bytes hsome ih =>
      rw [rows, if_neg hsome] at h
      rcases List.mem_cons.mp h with rfl | hrest
      · exact isTame_row _ _
      · exact ih hrest

/-! ### The rows of bytes -/

/-- Sixteen bytes to a row, and a row for what is left over. -/
theorem length_rows (position : Nat) (bytes : Bytes) :
    (rows position bytes).length = (bytes.length + 15) / 16 := by
  induction position, bytes using rows.induct with
  | case1 position bytes hempty =>
      rw [rows, if_pos hempty, List.isEmpty_iff.mp hempty]
      rfl
  | case2 position bytes hsome ih =>
      have hlength : 0 < bytes.length :=
        List.length_pos_iff.mpr fun hnil => hsome (List.isEmpty_iff.mpr hnil)
      rw [rows, if_neg hsome, List.length_cons, ih, List.length_drop, rowWidth]
      omega

theorem rows_getElem? (position : Nat) (bytes : Bytes) (index : Nat) :
    (rows position bytes)[index]? =
      if 16 * index < bytes.length then
        some (row (position + 16 * index) ((bytes.drop (16 * index)).take rowWidth))
      else none := by
  induction position, bytes using rows.induct generalizing index with
  | case1 position bytes hempty =>
      rw [rows, if_pos hempty, List.isEmpty_iff.mp hempty]
      simp
  | case2 position bytes hsome ih =>
      have hlength : 0 < bytes.length :=
        List.length_pos_iff.mpr fun hnil => hsome (List.isEmpty_iff.mpr hnil)
      rw [rows, if_neg hsome]
      cases index with
      | zero => simp [hlength]
      | succ index =>
          have hless : 16 * index < (bytes.drop rowWidth).length ↔ 16 * (index + 1) < bytes.length := by
            rw [List.length_drop, rowWidth]
            omega
          have hshift : ∀ start, start + rowWidth + 16 * index = start + 16 * (index + 1) := by
            intro start
            rw [rowWidth]
            omega
          have hdrop : rowWidth + 16 * index = 16 * (index + 1) := by
            rw [rowWidth]
            omega
          rw [List.getElem?_cons_succ, ih, List.drop_drop, hdrop, hshift]
          simp only [hless]

theorem isRow_of_getElem? {bytes : Bytes} {index : Nat} {line : String}
    (h : (rows 0 bytes)[index]? = some line) :
    IsRow (16 * index) ((bytes.drop (16 * index)).take 16) line.toList := by
  rw [rows_getElem?, Nat.zero_add] at h
  split at h
  · rw [← Option.some.inj h]
    exact isRow_row (List.length_take_le _ _)
  · cases h

/-- The lines of a dump of so many bytes. -/
def lineCount (limit length : Nat) : Nat :=
  (min limit length + 15) / 16 + if limit < length then 1 else 0

theorem length_lines (limit : Nat) (bytes : Bytes) :
    (lines limit bytes).length = lineCount limit bytes.length := by
  rw [lines, lineCount, List.length_append, length_rows, List.length_take]
  split <;> rfl

theorem isTame_of_mem_lines {limit : Nat} {bytes : Bytes} {line : String}
    (h : line ∈ lines limit bytes) : isTame line.toList := by
  rcases List.mem_append.mp h with hrow | hmore
  · exact isTame_of_mem_rows hrow
  · split at hmore
    · rw [List.mem_singleton.mp hmore]
      simp only [String.toList_append, isTame_append, isTame_toString]
      decide
    · cases hmore

end MovieAtoms.HexDump
