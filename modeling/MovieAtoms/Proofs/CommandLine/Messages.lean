import MovieAtoms.Extract
import MovieAtoms.Proofs.Json.Records
import MovieAtoms.Proofs.Text.Digits
import MovieAtoms.Proofs.Text.Tame

/-!
# Messages tell errors apart

A message is made of words, numbers and tags, and no two errors say the same, but for the bytes of
tags that are shown as full stops. Main statements: `Script.Error.message_inj`, by which the report
of a mistake tells its line, its number and the mistake, `DecodeError.message_inj`, and
`ExtractError.saysSame_of_shown`, by which what is shown of an extraction tells the phase that failed.

Both read a message from its front. A number goes as far as its digits do, a tag has four characters,
and quoted text gives back one character at a time.
-/

namespace MovieAtoms

/-! ### Numbers and tags at the front of a text -/

namespace Text

/-- A text that a number in front of it does not run into. -/
@[simp]
def EndsNumber (text : String) : Prop := ∀ c ∈ text.toList.head?, c.isDigit = false

theorem takeWhile_toString_append {number : Nat} {rest : String} (hrest : EndsNumber rest) :
    (toString number ++ rest).toList.takeWhile Char.isDigit = Nat.toDigits 10 number := by
  have hdigits : ∀ d ∈ Nat.toDigits 10 number, d.isDigit := fun d hd =>
    Nat.isDigit_of_mem_toDigits (by decide) (by decide) hd
  rw [String.toList_append, Nat.toString_eq_ofList_toDigits, String.toList_ofList,
    List.takeWhile_append_of_pos hdigits]
  cases htext : rest.toList with
  | nil => simp
  | cons c behind =>
      have hstop : c.isDigit = false := hrest c (by simp [htext])
      rw [List.takeWhile_cons_of_neg (by simp [hstop]), List.append_nil]

theorem toString_append_inj {number number' : Nat} {rest rest' : String} (hrest : EndsNumber rest)
    (hrest' : EndsNumber rest') (h : toString number ++ rest = toString number' ++ rest') :
    number = number' ∧ rest = rest' := by
  -- both numbers are the digits at the front
  have hdigits : Nat.toDigits 10 number = Nat.toDigits 10 number' := by
    rw [← takeWhile_toString_append hrest, h, takeWhile_toString_append hrest']
  have hnumber := congrArg (fun digits => Nat.ofDigitChars 10 digits 0) hdigits
  simp only [Nat.ofDigitChars_ten_toDigits] at hnumber
  rw [hnumber, String.append_right_inj] at h
  exact ⟨hnumber, h⟩

theorem toString_inj {number number' : Nat} (h : toString number = toString number') :
    number = number' := by
  have hnone : EndsNumber "" := by simp
  exact (toString_append_inj hnone hnone (congrArg (· ++ "") h)).1

/-- Two numbers with the same words in between. -/
theorem toString_pair_inj {first second first' second' : Nat} {words : String}
    (hwords : ∀ rest, EndsNumber (words ++ rest))
    (h : toString first ++ (words ++ toString second) =
      toString first' ++ (words ++ toString second')) :
    first = first' ∧ second = second' := by
  obtain ⟨hfirst, hrest⟩ := toString_append_inj (hwords _) (hwords _) h
  exact ⟨hfirst, toString_inj ((String.append_right_inj _).mp hrest)⟩

end Text

theorem Tag.text_append_inj {tag tag' : Tag} {rest rest' : String}
    (h : tag.text ++ rest = tag'.text ++ rest') : tag.dotted = tag'.dotted ∧ rest = rest' := by
  have hlength : tag.text.toList.length = tag'.text.toList.length := by
    simp [Tag.text, Text.length_shown]
  have hlists := congrArg String.toList h
  rw [String.toList_append, String.toList_append] at hlists
  obtain ⟨htext, hrest⟩ := List.append_inj hlists hlength
  exact ⟨Tag.text_eq_iff.mp (String.toList_inj.mp htext), String.toList_inj.mp hrest⟩

/-- A tag and two numbers, with the same words around the numbers. -/
theorem Tag.text_numbers_inj {tag tag' : Tag} {first second first' second' : Nat}
    {words words' rest : String} (hwords : ∀ rest, Text.EndsNumber (words' ++ rest))
    (hrest : Text.EndsNumber rest)
    (h : tag.text ++ (words ++ (toString first ++ (words' ++ (toString second ++ rest)))) =
      tag'.text ++ (words ++ (toString first' ++ (words' ++ (toString second' ++ rest))))) :
    tag.dotted = tag'.dotted ∧ first = first' ∧ second = second' := by
  obtain ⟨htag, hbehind⟩ := Tag.text_append_inj h
  rw [String.append_right_inj] at hbehind
  obtain ⟨hfirst, hbetween⟩ := Text.toString_append_inj (hwords _) (hwords _) hbehind
  rw [String.append_right_inj] at hbetween
  exact ⟨htag, hfirst, (Text.toString_append_inj hrest hrest hbetween).1⟩

/-! ### Quoted text -/

namespace Text

/-- What a letter behind a backslash stands for. -/
def unescaped : Char → Char
  | '0' => '\x00'
  | 't' => '\t'
  | 'n' => '\n'
  | 'r' => '\r'
  | c => c

/-- The character that is written at the front of quoted text, and the text behind it; nothing at
    the closing quote. -/
def unquote? : List Char → Option (Char × List Char)
  | '\\' :: 'u' :: '\x7b' :: rest => do
      let number ← numberOf? 16 (rest.takeWhile (· ≠ '\x7d'))
      return (Char.ofNat number, (rest.dropWhile (· ≠ '\x7d')).tail)
  | '\\' :: c :: rest => some (unescaped c, rest)
  | '"' :: _ => none
  | c :: rest => some (c, rest)
  | [] => none

theorem digitChar_ne_brace : ∀ digit < 16, decide (Nat.digitChar digit ≠ '\x7d') = true := by
  decide

theorem unquote?_codePoint (c : Char) (rest : List Char) :
    unquote? (codePoint c ++ rest) = some (c, rest) := by
  have hdigits : ∀ d ∈ Nat.toDigits 16 c.toNat, decide (d ≠ '\x7d') = true := by
    intro d hd
    obtain ⟨digit, hdigit, rfl⟩ := exists_digit_of_mem_toDigits (by decide) hd
    exact digitChar_ne_brace digit hdigit
  have hfront : codePoint c ++ rest =
      '\\' :: 'u' :: '\x7b' :: (Nat.toDigits 16 c.toNat ++ '\x7d' :: rest) := by
    simp [codePoint]
  rw [hfront, unquote?, List.takeWhile_append_of_pos hdigits, List.dropWhile_append_of_pos hdigits,
    List.takeWhile_cons_of_neg (by decide), List.dropWhile_cons_of_neg (by decide), List.append_nil,
    numberOf?_toDigits (by decide) (by decide)]
  simp

theorem unquote?_quoteChar (c : Char) (rest : List Char) :
    unquote? (quoteChar c ++ rest) = some (c, rest) := by
  unfold quoteChar
  split_ifs with hnull htab hfeed hreturn hquote hslash
  · subst hnull; rfl
  · subst htab; rfl
  · subst hfeed; rfl
  · subst hreturn; rfl
  · subst hquote; rfl
  · subst hslash; rfl
  · exact unquote?_codePoint c rest
  · simp [unquote?, hslash]

theorem flatMap_quoteChar_inj {text text' : List Char}
    (h : text.flatMap quoteChar ++ ['"'] = text'.flatMap quoteChar ++ ['"']) : text = text' := by
  induction text generalizing text' with
  | nil =>
      cases text' with
      | nil => rfl
      | cons c rest =>
          have hread := congrArg unquote? h
          rw [List.flatMap_cons, List.append_assoc, unquote?_quoteChar] at hread
          simp [unquote?] at hread
  | cons c rest ih =>
      have hread := congrArg unquote? h
      rw [List.flatMap_cons, List.append_assoc, unquote?_quoteChar] at hread
      cases text' with
      | nil => simp [unquote?] at hread
      | cons c' rest' =>
          rw [List.flatMap_cons, List.append_assoc, unquote?_quoteChar, Option.some.injEq,
            Prod.mk.injEq] at hread
          rw [hread.1, ih hread.2]

/-- Quoted text tells all of the text. -/
theorem quoted_inj {text text' : String} (h : quoted text = quoted text') : text = text' := by
  rw [quoted, quoted, String.ofList_inj, List.cons_append, List.cons_append, List.cons.injEq] at h
  exact String.toList_inj.mp (flatMap_quoteChar_inj h.2)

end Text

/-! ### Mistakes in scripts -/

namespace Script

theorem Mistake.message_append_inj {mistake mistake' : Mistake} {rest rest' : String}
    (h : mistake.message ++ rest = mistake'.message ++ rest') :
    mistake = mistake' ∧ rest = rest' := by
  -- sixteen characters are enough to tell the mistakes apart
  have hlong : ∀ mistake : Mistake, 16 ≤ mistake.message.toList.length := by
    rintro (_ | _ | _ | _ | _) <;> decide
  have hfront : ∀ mistake mistake' : Mistake,
      mistake.message.toList.take 16 = mistake'.message.toList.take 16 → mistake = mistake' := by
    rintro (_ | _ | _ | _ | _) (_ | _ | _ | _ | _) <;> decide
  have htake := congrArg (·.toList.take 16) h
  simp only [String.toList_append, List.take_append_of_le_length (hlong _)] at htake
  obtain rfl := hfront mistake mistake' htake
  exact ⟨rfl, (String.append_right_inj _).mp h⟩

/-- The report of a mistake tells all about it. -/
theorem Error.message_inj {error error' : Error} (h : error.message = error'.message) :
    error = error' := by
  unfold Error.message at h
  simp only [String.append_assoc, String.append_right_inj] at h
  obtain ⟨hnumber, hbehind⟩ := Text.toString_append_inj (by simp) (by simp) h
  obtain ⟨hmistake, hquoted⟩ :=
    Mistake.message_append_inj ((String.append_right_inj _).mp hbehind)
  have hline := Text.quoted_inj ((String.append_right_inj _).mp hquoted)
  rcases error with ⟨number, line, mistake⟩
  rcases error' with ⟨number', line', mistake'⟩
  rw [Error.mk.injEq]
  exact ⟨hnumber, hline, hmistake⟩

end Script

/-! ### Errors of a walk -/

/-- An error with its tags as they are shown. -/
def LayoutError.dotted : LayoutError → LayoutError
  | .entryTooSmall format size least => .entryTooSmall format.dotted size least
  | .extensionOverrun tag size remaining => .extensionOverrun tag.dotted size remaining
  | .truncated tag => .truncated tag.dotted
  | error => error

/-- An error with its tags as they are shown. -/
def DecodeError.dotted : DecodeError → DecodeError
  | .notMovie found => .notMovie found.dotted
  | .targetNotFound tag => .targetNotFound tag.dotted
  | .invalidSize tag size => .invalidSize tag.dotted size
  | .layout error => .layout error.dotted
  | error => error

/-- The first two characters of a message. -/
def LayoutError.lead : LayoutError → List Char
  | .brandCount .. => ['f', 't']
  | .entryCount .. | .entryTableOverflow .. => ['s', 't']
  | .entryTooSmall .. => ['s', 'a']
  | .extensionOverrun .. => ['e', 'x']
  | .truncated .. => ['a', 't']

theorem LayoutError.take_message (error : LayoutError) :
    error.message.toList.take 2 = error.lead := by
  unfold message
  cases error <;> simp [lead]

/-- The first two characters of a message. -/
def DecodeError.lead : DecodeError → List Char
  | .deviceFailure .. => ['i', 'o']
  | .prematureEnd => ['p', 'r']
  | .notMovie .. => ['n', 'o']
  | .targetNotFound .. => ['a', 't']
  | .invalidSize .. => ['i', 'n']
  | .shortSkip .. => ['s', 'h']
  | .layout error => error.lead

theorem DecodeError.take_message (error : DecodeError) :
    error.message.toList.take 2 = error.lead := by
  unfold message
  cases error
  case layout error => exact error.take_message
  all_goals simp [lead]

theorem LayoutError.message_entryCount_ne {declared decoded declared' room : Nat} :
    (entryCount declared decoded).message ≠ (entryTableOverflow declared' room).message := by
  unfold message
  simp only [String.append_assoc, ne_eq, String.append_right_inj]
  intro h
  obtain ⟨-, hrest⟩ := Text.toString_append_inj (by simp) (by simp) h
  have hwords := congrArg String.toList hrest
  simp at hwords

/-- The message of a layout error tells all about it but how the bytes of tags are shown. -/
theorem LayoutError.message_inj {error error' : LayoutError} (h : error.message = error'.message) :
    error.dotted = error'.dotted := by
  have hlead : error.lead = error'.lead := by rw [← take_message, ← take_message, h]
  cases error with
  | brandCount declared decoded =>
      cases error' with
      | brandCount declared' decoded' =>
          unfold message at h
          simp only [String.append_assoc, String.append_right_inj] at h
          obtain ⟨rfl, rfl⟩ := Text.toString_pair_inj (by simp) h
          rfl
      | _ => simp [lead] at hlead
  | entryCount declared decoded =>
      cases error' with
      | entryCount declared' decoded' =>
          unfold message at h
          simp only [String.append_assoc, String.append_right_inj] at h
          obtain ⟨rfl, rfl⟩ := Text.toString_pair_inj (by simp) h
          rfl
      | entryTableOverflow => exact absurd h message_entryCount_ne
      | _ => simp [lead] at hlead
  | entryTableOverflow declared room =>
      cases error' with
      | entryCount => exact absurd h.symm message_entryCount_ne
      | entryTableOverflow declared' room' =>
          unfold message at h
          simp only [String.append_assoc, String.append_right_inj] at h
          obtain ⟨rfl, rfl⟩ := Text.toString_pair_inj (by simp) h
          rfl
      | _ => simp [lead] at hlead
  | entryTooSmall format size least =>
      cases error' with
      | entryTooSmall format' size' least' =>
          unfold message at h
          simp only [String.append_assoc, String.append_right_inj] at h
          obtain ⟨hformat, rfl, rfl⟩ := Tag.text_numbers_inj (by simp) (by simp) h
          simp only [dotted, hformat]
      | _ => simp [lead] at hlead
  | extensionOverrun tag size remaining =>
      cases error' with
      | extensionOverrun tag' size' remaining' =>
          unfold message at h
          simp only [String.append_assoc, String.append_right_inj] at h
          obtain ⟨htag, rfl, rfl⟩ := Tag.text_numbers_inj (by simp) (by simp) h
          simp only [dotted, htag]
      | _ => simp [lead] at hlead
  | truncated tag =>
      cases error' with
      | truncated tag' =>
          unfold message at h
          simp only [String.append_assoc, String.append_right_inj] at h
          simp only [dotted, (Tag.text_append_inj h).1]
      | _ => simp [lead] at hlead

theorem DecodeError.message_targetNotFound_ne {tag : Tag} {error : LayoutError} :
    (targetNotFound tag).message ≠ (layout error).message := by
  intro h
  have hlead : (targetNotFound tag).lead = (layout error).lead := by
    rw [← take_message, ← take_message, h]
  cases error with
  | truncated tag' =>
      unfold message LayoutError.message at h
      simp only [String.append_assoc, String.append_right_inj] at h
      have hwords := congrArg String.toList (Tag.text_append_inj h).2
      simp at hwords
  | _ => simp [lead, LayoutError.lead] at hlead

/-- Among the errors of a walk only the layout errors share their first characters with others. -/
theorem DecodeError.lead_ne_layout {error : DecodeError} {layoutError : LayoutError}
    (h : error.lead = layoutError.lead) :
    (∃ tag, error = .targetNotFound tag) ∨ ∃ error', error = .layout error' := by
  cases error <;> cases layoutError <;> simp [lead, LayoutError.lead] at h ⊢

/-- The message of an error tells all about it but how the bytes of tags are shown. -/
theorem DecodeError.message_inj {error error' : DecodeError} (h : error.message = error'.message) :
    error.dotted = error'.dotted := by
  have hlead : error.lead = error'.lead := by rw [← take_message, ← take_message, h]
  cases error with
  | deviceFailure reason =>
      cases error' with
      | deviceFailure reason' =>
          unfold message at h
          simp only [dotted, (String.append_right_inj _).mp h]
      | layout error' => simpa using lead_ne_layout hlead
      | _ => simp [lead] at hlead
  | prematureEnd =>
      cases error' with
      | prematureEnd => rfl
      | layout error' => simpa using lead_ne_layout hlead
      | _ => simp [lead] at hlead
  | notMovie found =>
      cases error' with
      | notMovie found' =>
          unfold message at h
          simp only [String.append_assoc, String.append_right_inj] at h
          simp only [dotted, (Tag.text_append_inj h).1]
      | layout error' => simpa using lead_ne_layout hlead
      | _ => simp [lead] at hlead
  | targetNotFound tag =>
      cases error' with
      | targetNotFound tag' =>
          unfold message at h
          simp only [String.append_assoc, String.append_right_inj] at h
          simp only [dotted, (Tag.text_append_inj h).1]
      | layout error' => exact absurd h message_targetNotFound_ne
      | _ => simp [lead] at hlead
  | invalidSize tag size =>
      cases error' with
      | invalidSize tag' size' =>
          unfold message at h
          simp only [String.append_assoc, String.append_right_inj] at h
          obtain ⟨rfl, hrest⟩ := Text.toString_append_inj (by simp) (by simp) h
          obtain ⟨htag, -⟩ := Tag.text_append_inj ((String.append_right_inj _).mp hrest)
          simp only [dotted, htag]
      | layout error' => simpa using lead_ne_layout hlead
      | _ => simp [lead] at hlead
  | shortSkip wanted skipped =>
      cases error' with
      | shortSkip wanted' skipped' =>
          unfold message at h
          simp only [String.append_assoc, String.append_right_inj] at h
          obtain ⟨rfl, rfl⟩ := Text.toString_pair_inj (by simp) h
          rfl
      | layout error' => simpa using lead_ne_layout hlead
      | _ => simp [lead] at hlead
  | layout error =>
      cases error' with
      | targetNotFound tag => exact absurd h.symm message_targetNotFound_ne
      | layout error' => exact congrArg layout (LayoutError.message_inj h)
      | _ => simpa using lead_ne_layout hlead.symm

/-! ### Errors of an extraction -/

/-- What a command line shows last when its extraction from a path fails. -/
def ExtractError.shown (path : String) : ExtractError → String
  | .script error => "Error: " ++ error.message ++ "\n"
  | .openFailed _ cause =>
      "Error: opening " ++ path ++ "\n\nCaused by:\n    " ++ cause.message ++ "\n"
  | .decode error =>
      "Error: decoding " ++ path ++ "\n\nCaused by:\n    " ++ error.message ++ "\n"

/-- Errors that are told apart by nothing, or only by bytes of tags that are shown alike. -/
def ExtractError.SaysSame : ExtractError → ExtractError → Prop
  | .script error, .script error' => error = error'
  | .openFailed _ cause, .openFailed _ cause' => cause.message = cause'.message
  | .decode error, .decode error' => error.dotted = error'.dotted
  | _, _ => False

/-- The characters up to the first one that tells the phase. -/
def ExtractError.lead : ExtractError → List Char
  | .script _ => ['E', 'r', 'r', 'o', 'r', ':', ' ', 's']
  | .openFailed .. => ['E', 'r', 'r', 'o', 'r', ':', ' ', 'o']
  | .decode _ => ['E', 'r', 'r', 'o', 'r', ':', ' ', 'd']

theorem ExtractError.take_shown (path : String) (error : ExtractError) :
    (error.shown path).toList.take 8 = error.lead := by
  unfold shown
  cases error with
  | script error =>
      unfold Script.Error.message
      simp [lead]
  | openFailed => simp [lead]
  | decode => simp [lead]

/-- What is shown tells the phase that failed, and its error. -/
theorem ExtractError.saysSame_of_shown {path : String} {error error' : ExtractError}
    (h : error.shown path = error'.shown path) : error.SaysSame error' := by
  have hlead : error.lead = error'.lead := by rw [← take_shown path, ← take_shown path, h]
  unfold shown at h
  cases error with
  | script error =>
      cases error' with
      | script error' =>
          simp only [String.append_assoc, String.append_right_inj, String.append_left_inj] at h
          exact Script.Error.message_inj h
      | _ => simp [lead] at hlead
  | openFailed _ cause =>
      cases error' with
      | openFailed _ cause' =>
          simp only [String.append_assoc, String.append_right_inj, String.append_left_inj] at h
          exact h
      | _ => simp [lead] at hlead
  | decode error =>
      cases error' with
      | decode error' =>
          simp only [String.append_assoc, String.append_right_inj, String.append_left_inj] at h
          exact DecodeError.message_inj h
      | _ => simp [lead] at hlead

end MovieAtoms
