import MovieAtoms.Proofs.Text.Tame
import MovieAtoms.Proofs.Text.Words

/-!
# Texts of tame lines

An output is built line by line, with a line feed behind each line. As no tame line holds a line feed
or a carriage return, the text falls into the lines that it was built from: `lines_ended`.
-/

namespace MovieAtoms

open Text

/-- Each line with a line feed behind it. -/
def ended (lines : List String) : String := String.join (lines.map (· ++ "\n"))

/-- The text is so many tame lines, each ended by a line feed. -/
def TameLines (count : Nat) (text : String) : Prop :=
  ∃ lines : List String, text = ended lines ∧ (∀ line ∈ lines, isTame line.toList) ∧
    lines.length = count

theorem ended_append (lines lines' : List String) :
    ended (lines ++ lines') = ended lines ++ ended lines' := by
  rw [ended, List.map_append, String.join_append]
  rfl

theorem ended_cons (line : String) (lines : List String) :
    ended (line :: lines) = line ++ "\n" ++ ended lines := String.join_cons

/-- Line feeds in front of the lines of a list move behind them. -/
theorem join_append_feed (first : String) (items : List α) (f : α → String) :
    first ++ String.join (items.map fun item => "\n  " ++ f item) ++ "\n" =
      ended (first :: items.map fun item => "  " ++ f item) := by
  induction items generalizing first with
  | nil => simp [ended]
  | cons item items ih =>
      have hfeed : "\n  " ++ f item = "\n" ++ ("  " ++ f item) := by
        rw [← String.append_assoc]
        rfl
      rw [List.map_cons, String.join_cons, List.map_cons, ended_cons, ← ih, hfeed]
      simp only [String.append_assoc]

namespace TameLines

variable {count count' : Nat} {text text' : String}

theorem line (h : isTame text.toList) : TameLines 1 (ended [text]) :=
  ⟨[text], rfl, by simpa using h, rfl⟩

theorem append (h : TameLines count text) (h' : TameLines count' text') :
    TameLines (count + count') (text ++ text') := by
  obtain ⟨lines, rfl, htame, rfl⟩ := h
  obtain ⟨lines', rfl, htame', rfl⟩ := h'
  refine ⟨lines ++ lines', (ended_append _ _).symm, ?_, List.length_append⟩
  intro line hline
  exact (List.mem_append.mp hline).elim (htame line) (htame' line)

end TameLines

/-! ### The lines that a text falls into -/

theorem feed_not_mem_of_isTame {line : List Char} (h : isTame line) : '\n' ∉ line := by
  intro hmem
  exact absurd (isTame_iff.mp h '\n' hmem) (by decide)

theorem dropReturn_of_isTame {line : List Char} (h : isTame line) : dropReturn line = line := by
  rw [dropReturn, if_neg]
  intro hlast
  exact absurd (isTame_iff.mp h '\r' (List.mem_of_getLast? hlast)) (by decide)

theorem lines_ended {lines : List String} (h : ∀ line ∈ lines, isTame line.toList) :
    Text.lines (ended lines).toList = lines.map String.toList := by
  induction lines with
  | nil =>
      rw [Text.lines_of_not_mem (by decide)]
      rfl
  | cons line others ih =>
      obtain ⟨hline, hothers⟩ := List.forall_mem_cons.mp h
      have htext : (ended (line :: others)).toList = line.toList ++ '\n' :: (ended others).toList := by
        simp [ended_cons]
      rw [htext, Text.lines_append_feed (feed_not_mem_of_isTame hline), dropReturn_of_isTame hline,
        ih hothers, List.map_cons]

end MovieAtoms
