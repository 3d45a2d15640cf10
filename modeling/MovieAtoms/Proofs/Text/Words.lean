import Mathlib.Data.List.TakeWhile
import MovieAtoms.Text.Blank

/-!
# Words and lines

How the words of a text and its lines come together when texts do. Main statements:
`words_append_blank`, by which a blank keeps the words on its two sides apart, and
`lines_append_feed`, by which a line feed does the same to lines.
-/

namespace MovieAtoms.Text

/-! ### Words -/

variable {text word : List Char} {c : Char}

/-- A run ends at the first item that does not belong to it, so what follows does not matter. -/
theorem takeWhile_append_stop {α : Type} {p : α → Bool} {stop : α} (hstop : p stop = false)
    (front rest : List α) : (front ++ stop :: rest).takeWhile p = front.takeWhile p := by
  induction front with
  | nil => simp [hstop]
  | cons d front ih => rw [List.cons_append, List.takeWhile_cons, List.takeWhile_cons, ih]

theorem dropWhile_append_stop {p : Char → Bool} (hc : p c = false) (front rest : List Char) :
    (front ++ c :: rest).dropWhile p = front.dropWhile p ++ c :: rest := by
  induction front with
  | nil => simp [hc]
  | cons d front ih =>
      rw [List.cons_append, List.dropWhile_cons, List.dropWhile_cons, ih]
      split <;> rfl

theorem words_cons_blank (hc : isBlank c) (rest : List Char) : words (c :: rest) = words rest := by
  rw [words, if_pos hc]

/-- A blank keeps the words on its two sides apart. -/
theorem words_append_blank (hc : isBlank c) (front rest : List Char) :
    words (front ++ c :: rest) = words front ++ words rest := by
  have hstop : (!isBlank c) = false := by rw [hc]; rfl
  induction front using words.induct with
  | case1 => rw [List.nil_append, words_cons_blank hc, words, List.nil_append]
  | case2 d front hd ih => rw [List.cons_append, words_cons_blank hd, words_cons_blank hd, ih]
  | case3 d front hd ih =>
      rw [List.cons_append, words, if_neg hd, words, if_neg hd, List.cons_append,
        takeWhile_append_stop (p := (!isBlank ·)) hstop, dropWhile_append_stop hstop, ih]

theorem words_concat_blank (hc : isBlank c) (front : List Char) :
    words (front ++ [c]) = words front := by
  rw [words_append_blank hc, words, List.append_nil]

theorem words_of_not_isBlank (hsome : word ≠ []) (h : ∀ c ∈ word, isBlank c = false) :
    words word = [word] := by
  cases word with
  | nil => exact absurd rfl hsome
  | cons c rest =>
      obtain ⟨hc, hrest⟩ := List.forall_mem_cons.mp h
      have hall : ∀ d ∈ rest, (!isBlank d) = true := fun d hd => by rw [hrest d hd]; rfl
      rw [words, if_neg (Bool.eq_false_iff.mp hc), List.takeWhile_eq_self_iff.mpr hall,
        List.dropWhile_eq_nil_iff.mpr hall, words]

/-- A word stands somewhere in its text. -/
theorem isInfix_of_mem_words (h : word ∈ words text) : word <:+: text := by
  induction text using words.induct with
  | case1 => simp [words] at h
  | case2 c rest hc ih =>
      rw [words_cons_blank hc] at h
      exact List.infix_cons (ih h)
  | case3 c rest hc ih =>
      rw [words, if_neg hc, List.mem_cons] at h
      rcases h with rfl | h
      · have hrun : rest.takeWhile (!isBlank ·) <+: rest := List.takeWhile_prefix _
        exact (List.cons_prefix_cons.mpr ⟨rfl, hrun⟩).isInfix
      · have hbehind : rest.dropWhile (!isBlank ·) <:+ rest := List.dropWhile_suffix _
        exact List.infix_cons ((ih h).trans hbehind.isInfix)

/-! ### Lines -/

variable {line : List Char}

theorem lines_append_feed (hline : '\n' ∉ line) (rest : List Char) :
    lines (line ++ '\n' :: rest) = dropReturn line :: lines rest := by
  have hall : ∀ c ∈ line, decide (c ≠ '\n') = true := fun c hc =>
    decide_eq_true fun heq => hline (heq ▸ hc)
  have htake : (line ++ '\n' :: rest).takeWhile (· ≠ '\n') = line := by
    rw [List.takeWhile_append_of_pos hall]
    simp
  have hdrop : (line ++ '\n' :: rest).dropWhile (· ≠ '\n') = '\n' :: rest := by
    rw [List.dropWhile_append_of_pos hall]
    simp
  rw [lines]
  split
  · rename_i hnil
    rw [hdrop] at hnil
    cases hnil
  · rename_i hcons
    rw [hdrop] at hcons
    cases hcons
    rw [htake]

/-- The end of a text is a line unless a line feed has just ended one. -/
theorem lines_of_not_mem (hline : '\n' ∉ line) :
    lines line = if line.isEmpty then [] else [line] := by
  have hall : ∀ c ∈ line, decide (c ≠ '\n') = true := fun c hc =>
    decide_eq_true fun heq => hline (heq ▸ hc)
  have hdrop : line.dropWhile (· ≠ '\n') = [] := List.dropWhile_eq_nil_iff.mpr hall
  rw [lines]
  split
  · rfl
  · rename_i hcons
    rw [hdrop] at hcons
    cases hcons

end MovieAtoms.Text
