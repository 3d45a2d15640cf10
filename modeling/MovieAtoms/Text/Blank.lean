/-!
# Blanks, words and lines

Text is cut at blanks, the characters of Unicode's property `White_Space`, and at line feeds. A
carriage return in front of a line feed belongs to the line's end, and nothing follows a final
line feed.

Main statement: `not_isBlank_of_mem_words`, by which words are runs without blanks.
-/

namespace MovieAtoms.Text

/-- Whether a number lies in one of the ranges, ends included. -/
def inRanges (ranges : List (Nat × Nat)) (number : Nat) : Bool :=
  ranges.any fun range => decide (range.1 ≤ number ∧ number ≤ range.2)

/-- The code points of the property `White_Space`. -/
def blankRanges : List (Nat × Nat) := [
  (0x9, 0xD), (0x20, 0x20), (0x85, 0x85), (0xA0, 0xA0), (0x1680, 0x1680), (0x2000, 0x200A),
  (0x2028, 0x2029), (0x202F, 0x202F), (0x205F, 0x205F), (0x3000, 0x3000)]

def isBlank (c : Char) : Bool := inRanges blankRanges c.toNat

/-- The text from its first non-blank character on. -/
def trimStart (text : List Char) : List Char := text.dropWhile isBlank

def trim (text : List Char) : List Char := (trimStart (trimStart text).reverse).reverse

/-- The maximal runs of non-blank characters, in order. -/
def words : List Char → List (List Char)
  | [] => []
  | c :: rest =>
      if isBlank c then words rest
      else (c :: rest.takeWhile (!isBlank ·)) :: words (rest.dropWhile (!isBlank ·))
termination_by text => text.length
decreasing_by
  · simp
  · have := (List.dropWhile_suffix (l := rest) (!isBlank ·)).length_le
    simp only [List.length_cons]
    omega

theorem not_isBlank_of_mem_words {text word : List Char} (h : word ∈ words text) :
    ∀ c ∈ word, isBlank c = false := by
  induction text using words.induct with
  | case1 => simp [words] at h
  | case2 c rest hc ih => exact ih (by simpa [words, hc] using h)
  | case3 c rest hc ih =>
      rw [words, if_neg hc, List.mem_cons] at h
      rcases h with rfl | h
      · intro d hd
        rcases List.mem_cons.mp hd with rfl | hd
        · simpa using hc
        · simpa using List.all_takeWhile (l := rest) (p := (!isBlank ·)) |> List.all_eq_true.mp
            |> (· d hd)
      · exact ih h

/-- A line without the carriage return in front of its line feed. -/
def dropReturn (line : List Char) : List Char :=
  if line.getLast? = some '\r' then line.dropLast else line

/-- The lines of a text. Only a line that a line feed ends loses a carriage return. -/
def lines (text : List Char) : List (List Char) :=
  match _h : text.dropWhile (· ≠ '\n') with
  | [] => if text.isEmpty then [] else [text]
  | _ :: rest => dropReturn (text.takeWhile (· ≠ '\n')) :: lines rest
termination_by text.length
decreasing_by
  have := (List.dropWhile_suffix (l := text) (· ≠ '\n')).length_le
  rw [_h, List.length_cons] at this
  omega

end MovieAtoms.Text
