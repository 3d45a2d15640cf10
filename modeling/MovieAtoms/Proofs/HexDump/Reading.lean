import MovieAtoms.Proofs.HexDump.Rows
import MovieAtoms.Proofs.Text.TameLines

/-!
# Dumps read back

The pairs of a row stand in columns of their own, so a reader takes the bytes from these columns and
never looks at the visible text, where any character may stand for a byte, bars and spaces too. Main
statement: `text_faithful`, by which a dump has the rows of the bytes that it shows and a last line
for those that it leaves out, and reads back as the bytes that are shown and the length of all.
-/

namespace MovieAtoms.HexDump

open Text

/-! ### The reader -/

/-- The bytes of a row, from the columns of the pairs. -/
def readRow? (row : List Char) : Option Bytes :=
  Hex.bytes? ((((row.dropWhile (· ≠ ' ')).drop 2).take 47).filter (· ≠ ' '))

/-- The number in the line that says how many bytes are left out. -/
def readMore? (line : List Char) : Option Nat :=
  numberOf? 10 ((line.drop 4).takeWhile (· ≠ ' '))

/-- The bytes that are shown and how many are left out. -/
def readLines? : List (List Char) → Option (Bytes × Nat)
  | [] => some ([], 0)
  | line :: others =>
      if line.head? = some '.' then (readMore? line).map fun more => ([], more)
      else do
        let bytes ← readRow? line
        let (rest, more) ← readLines? others
        return (bytes ++ rest, more)

/-- The bytes that a dump shows and the length of all bytes. -/
def read? (text : String) : Option (Bytes × Nat) := do
  let (front, more) ← readLines? (Text.lines text.toList)
  return (front, front.length + more)

/-! ### Rows are read back -/

/-- No digit of a dump is a space. -/
theorem ne_space_of_small {c : Char} (h : c ∈ smallDigits) : c ≠ ' ' :=
  ne_of_mem_of_not_mem h (by decide)

theorem filter_pairs (bytes : Bytes) : (pairs bytes).filter (· ≠ ' ') = Hex.ofBytes bytes := by
  have hbyte : ∀ byte, (Hex.ofByte byte).filter (· ≠ ' ') = Hex.ofByte byte := by
    intro byte
    apply List.filter_eq_self.mpr
    intro c hc
    simpa using ne_space_of_small ((isPair_ofByte byte).small c hc)
  induction bytes with
  | nil => rfl
  | cons byte rest ih =>
      cases rest with
      | nil => simpa [pairs, Hex.ofBytes] using hbyte byte
      | cons next rest =>
          rw [pairs_cons_cons, List.filter_append, hbyte, List.filter_cons_of_neg (by decide), ih]
          rfl

theorem readRow?_row {position : Nat} {bytes : Bytes} (h : bytes.length ≤ rowWidth) :
    readRow? (row position bytes).toList = some bytes := by
  let columns := padRight pairsWidth (pairs bytes)
  let behind := "  |".toList ++ shown bytes ++ ['|']
  have hrow : (row position bytes).toList = offset position ++ ' ' :: ' ' :: (columns ++ behind) := by
    simp [row, columns, behind]
  have hoffset : ∀ c ∈ offset position, decide (c ≠ ' ') = true := by
    intro c hc
    simpa using ne_space_of_small (small_of_mem_offset hc)
  have hdrop : ((row position bytes).toList.dropWhile (· ≠ ' ')).drop 2 = columns ++ behind := by
    rw [hrow, List.dropWhile_append_of_pos hoffset]
    rfl
  have hfilter : columns.filter (· ≠ ' ') = Hex.ofBytes bytes := by
    simp only [columns, padRight, List.filter_append, filter_pairs]
    simp
  rw [readRow?, hdrop, List.take_left' (length_padRight_pairs h), hfilter, Hex.bytes?_ofBytes]

/-- Rows begin with a digit, so none is taken for the line of the bytes that are left out. -/
theorem head?_row (position : Nat) (bytes : Bytes) :
    (row position bytes).toList.head? ≠ some '.' := by
  have hoffset := (isOffset_offset position).length
  have hsome : offset position ≠ [] := by
    intro hnil
    rw [hnil, List.length_nil] at hoffset
    omega
  obtain ⟨digit, others, hdigits⟩ := List.exists_cons_of_ne_nil hsome
  have hsmall : digit ∈ smallDigits := small_of_mem_offset (hdigits ▸ List.mem_cons_self)
  have hstop : digit ≠ '.' := ne_of_mem_of_not_mem hsmall (by decide)
  simp [row, hdigits, hstop]

theorem readLines?_rows (position : Nat) (bytes : Bytes) (others : List (List Char)) :
    readLines? ((rows position bytes).map String.toList ++ others) =
      (readLines? others).map fun (rest, more) => (bytes ++ rest, more) := by
  induction position, bytes using rows.induct with
  | case1 position bytes hempty =>
      rw [rows, if_pos hempty, List.isEmpty_iff.mp hempty]
      simp
  | case2 position bytes hsome ih =>
      have hrow : readRow? (row position (bytes.take rowWidth)).toList =
          some (bytes.take rowWidth) := readRow?_row (List.length_take_le _ _)
      rw [rows, if_neg hsome, List.map_cons, List.cons_append, readLines?,
        if_neg (head?_row position _), hrow, ih]
      cases readLines? others with
      | none => rfl
      | some found =>
          obtain ⟨rest, more⟩ := found
          simp [← List.append_assoc, List.take_append_drop]

/-! ### The line of the bytes that are left out -/

theorem readMore?_line (count : Nat) :
    readMore? ("... " ++ toString count ++ " more bytes").toList = some count := by
  have hline : ("... " ++ toString count ++ " more bytes").toList =
      "... ".toList ++ (Nat.toDigits 10 count ++ ' ' :: "more bytes".toList) := by
    change ("... " ++ Nat.repr count ++ " more bytes").toList = _
    simp [Nat.repr_eq_ofList_toDigits]
  have hdigits : ∀ c ∈ Nat.toDigits 10 count, decide (c ≠ ' ') = true := by
    intro c hc
    obtain ⟨digit, hlt, rfl⟩ := exists_digit_of_mem_toDigits (by decide) hc
    have hsmall := digitChar_mem_smallDigits digit (by omega)
    exact decide_eq_true (ne_space_of_small hsmall)
  have hdrop : ("... ".toList ++ (Nat.toDigits 10 count ++ ' ' :: "more bytes".toList)).drop 4 =
      Nat.toDigits 10 count ++ ' ' :: "more bytes".toList := rfl
  rw [readMore?, hline, hdrop, List.takeWhile_append_of_pos hdigits,
    List.takeWhile_cons_of_neg (by decide), List.append_nil,
    numberOf?_toDigits (by decide) (by decide)]

/-- What follows the rows tells the number of bytes that are not shown, also if it is nothing. -/
theorem readLines?_more (limit length : Nat) :
    readLines? ((if limit < length then ["... " ++ toString (length - limit) ++ " more bytes"]
      else []).map String.toList) = some ([], length - limit) := by
  split
  · have hhead : ("... " ++ toString (length - limit) ++ " more bytes").toList.head? = some '.' := by
      simp
    rw [List.map_cons, List.map_nil, readLines?, if_pos hhead, readMore?_line]
    rfl
  · rename_i hall
    rw [List.map_nil, readLines?, Nat.sub_eq_zero_of_le (Nat.le_of_not_lt hall)]

theorem read?_text (limit : Nat) (bytes : Bytes) :
    read? (text limit bytes) = some (bytes.take limit, bytes.length) := by
  have htext : Text.lines (text limit bytes).toList = (lines limit bytes).map String.toList :=
    lines_ended fun _ => isTame_of_mem_lines
  have hlength : (bytes.take limit).length + (bytes.length - limit) = bytes.length := by
    rw [List.length_take]
    omega
  rw [read?, htext, lines, List.map_append, readLines?_rows, readLines?_more]
  change some (bytes.take limit ++ [], (bytes.take limit ++ []).length + (bytes.length - limit)) = _
  rw [List.append_nil, hlength]

/-! ### Whole dumps -/

/-- A dump is a row for every sixteen bytes and one for those that are left over, of as many bytes as
    the limit lets through, and a last line exactly if it leaves some out. The bars stand in one
    column. The bytes that are shown and the number of all bytes can be read back. -/
theorem text_faithful (limit : Nat) (bytes : Bytes) :
    (∃ rows : List String,
      text limit bytes = ended (rows ++
        if limit < bytes.length then ["... " ++ toString (bytes.length - limit) ++ " more bytes"]
        else []) ∧
      rows.length = (min bytes.length limit + 15) / 16 ∧
      ∀ index row, rows[index]? = some row →
        IsRow (16 * index) (((bytes.take limit).drop (16 * index)).take 16) row.toList ∧
          (16 * index < 2 ^ 32 → row.toList.idxOf '|' = 59)) ∧
      read? (text limit bytes) = some (bytes.take limit, bytes.length) := by
  refine ⟨⟨rows 0 (bytes.take limit), rfl, ?_, ?_⟩, read?_text limit bytes⟩
  · rw [length_rows, List.length_take, Nat.min_comm]
  · intro index row hindex
    have hrow := isRow_of_getElem? hindex
    exact ⟨hrow, hrow.idxOf_bar⟩

end MovieAtoms.HexDump
