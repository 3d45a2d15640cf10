import MovieAtoms.Text.Utf8

/-!
# Well-formed text is read as it was written

The bytes of a text are its characters in UTF-8, one after the other. Main statement:
`decodeLossy_encode`, by which reading these bytes gives the text again, with no replacement
character that was not in it.

The reader goes byte by byte, so the proof follows a character through the reader's states: the
first byte announces how many bytes follow and how narrow the range of the second one is, and each
later byte adds six bits.
-/

namespace MovieAtoms.Text.Utf8

/-- The bytes of a text. -/
def encode (text : String) : Bytes := text.toList.flatMap String.utf8EncodeChar

theorem length_encode (text : String) : (encode text).length = text.utf8ByteSize := by
  have hbytes : text.toByteArray = (encode text).toByteArray := String.utf8Encode_toList.symm
  rw [String.utf8ByteSize, hbytes, List.size_toByteArray]

/-! ### First bytes -/

theorem start_one :
    ∀ value < 128, start (UInt8.ofNat value) = ([some (Char.ofNat value)], none) := by
  decide +kernel

theorem start_two : ∀ high < 32, 2 ≤ high →
    start (UInt8.ofNat (high + 192)) = ([], some ⟨high, 0, 0x80, 0xBF⟩) := by
  decide +kernel

/-- The second of three bytes must spell neither a shorter form nor a surrogate. -/
theorem start_three : ∀ high < 16, start (UInt8.ofNat (high + 224)) =
    ([], some ⟨high, 1, if high = 0 then 0xA0 else 0x80, if high = 13 then 0x9F else 0xBF⟩) := by
  decide +kernel

/-- The second of four bytes must spell neither a shorter form nor what is beyond the last
    character. -/
theorem start_four : ∀ high < 5, start (UInt8.ofNat (high + 240)) =
    ([], some ⟨high, 2, if high = 0 then 0x90 else 0x80, if high = 4 then 0x8F else 0xBF⟩) := by
  decide +kernel

/-! ### Later bytes -/

section

variable {value owed low : Nat} {least greatest : UInt8} (hlow : low < 64)
  (hleast : least.toNat ≤ low + 128) (hgreatest : low + 128 ≤ greatest.toNat)

include hlow hleast hgreatest

/-- A byte in the range that it must be in adds its six bits. -/
theorem step_later :
    step (some ⟨value, owed, least, greatest⟩) (UInt8.ofNat (low + 128)) =
      match owed with
      | 0 => ([some (Char.ofNat (value * 64 + low))], none)
      | owed + 1 => ([], some ⟨value * 64 + low, owed, 0x80, 0xBF⟩) := by
  have hbyte : (UInt8.ofNat (low + 128)).toNat = low + 128 := by
    rw [UInt8.toNat_ofNat', Nat.mod_eq_of_lt (by omega)]
  have hrange : least ≤ UInt8.ofNat (low + 128) ∧ UInt8.ofNat (low + 128) ≤ greatest := by
    rw [UInt8.le_iff_toNat_le, UInt8.le_iff_toNat_le, hbyte]
    exact ⟨hleast, hgreatest⟩
  have hbits : (low + 128) % 64 = low := by omega
  cases owed <;> simp only [step, if_pos hrange, hbyte, hbits]

theorem characters_last (rest : Bytes) :
    characters (some ⟨value, 0, least, greatest⟩) (UInt8.ofNat (low + 128) :: rest) =
      some (Char.ofNat (value * 64 + low)) :: characters none rest := by
  rw [characters, step_later hlow hleast hgreatest]
  rfl

theorem characters_inner (rest : Bytes) :
    characters (some ⟨value, owed + 1, least, greatest⟩) (UInt8.ofNat (low + 128) :: rest) =
      characters (some ⟨value * 64 + low, owed, 0x80, 0xBF⟩) rest := by
  rw [characters, step_later hlow hleast hgreatest]
  rfl

end

/-! ### Characters and texts -/

theorem characters_start {byte : UInt8} {done : List (Option Char)} {next : Option Unfinished}
    (h : start byte = (done, next)) (rest : Bytes) :
    characters none (byte :: rest) = done ++ characters next rest := by
  rw [characters, step, h]

theorem characters_utf8EncodeChar (char : Char) (rest : Bytes) :
    characters none (String.utf8EncodeChar char ++ rest) = some char :: characters none rest := by
  have hvalid : char.toNat < 0xD800 ∨ 0xDFFF < char.toNat ∧ char.toNat < 0x110000 := char.valid
  have hchar : Char.ofNat char.toNat = char := Char.ofNat_toNat char
  have hcode : char.val.toNat = char.toNat := rfl
  simp only [String.utf8EncodeChar, hcode]
  generalize char.toNat = code at hvalid hchar
  have hlow : code % 64 + 128 ≤ 191 := by omega
  split
  · rename_i hone
    have hfirst := start_one code (by omega)
    rw [List.singleton_append, characters_start hfirst, hchar]
    rfl
  split
  · rename_i hone htwo
    have hhigh : code / 64 % 32 = code / 64 := Nat.mod_eq_of_lt (by omega)
    have hsum : code / 64 * 64 + code % 64 = code := by omega
    have hfirst := start_two (code / 64) (by omega) (by omega)
    simp only [List.cons_append, List.nil_append, hhigh]
    rw [characters_start hfirst, List.nil_append,
      characters_last (by omega) (Nat.le_add_left _ _) hlow, hsum, hchar]
  have hmiddle : code / 64 % 64 + 128 ≤ 191 := by omega
  split
  · rename_i hone htwo hthree
    have hhigh : code / 4096 % 16 = code / 4096 := Nat.mod_eq_of_lt (by omega)
    have hsum : (code / 4096 * 64 + code / 64 % 64) * 64 + code % 64 = code := by omega
    have hfirst := start_three (code / 4096) (by omega)
    have hleast : (if code / 4096 = 0 then 0xA0 else 0x80 : UInt8).toNat ≤
        code / 64 % 64 + 128 := by
      split <;> (simp only [UInt8.reduceToNat]; omega)
    have hgreatest : code / 64 % 64 + 128 ≤
        (if code / 4096 = 13 then 0x9F else 0xBF : UInt8).toNat := by
      split <;> (simp only [UInt8.reduceToNat]; omega)
    simp only [List.cons_append, List.nil_append, hhigh]
    rw [characters_start hfirst, List.nil_append, characters_inner (by omega) hleast hgreatest,
      characters_last (by omega) (Nat.le_add_left _ _) hlow, hsum, hchar]
  · rename_i hone htwo hthree
    have hhigh : code / 262144 % 8 = code / 262144 := Nat.mod_eq_of_lt (by omega)
    have hsum : ((code / 262144 * 64 + code / 4096 % 64) * 64 + code / 64 % 64) * 64 +
      code % 64 = code := by omega
    have hfirst := start_four (code / 262144) (by omega)
    have hleast : (if code / 262144 = 0 then 0x90 else 0x80 : UInt8).toNat ≤
        code / 4096 % 64 + 128 := by
      split <;> (simp only [UInt8.reduceToNat]; omega)
    have hgreatest : code / 4096 % 64 + 128 ≤
        (if code / 262144 = 4 then 0x8F else 0xBF : UInt8).toNat := by
      split <;> (simp only [UInt8.reduceToNat]; omega)
    simp only [List.cons_append, List.nil_append, hhigh]
    rw [characters_start hfirst, List.nil_append, characters_inner (by omega) hleast hgreatest,
      characters_inner (by omega) (Nat.le_add_left _ _) hmiddle,
      characters_last (by omega) (Nat.le_add_left _ _) hlow, hsum, hchar]

theorem characters_encode (text : String) :
    characters none (encode text) = text.toList.map some := by
  rw [encode]
  induction text.toList with
  | nil => rfl
  | cons char others ih =>
      rw [List.flatMap_cons, characters_utf8EncodeChar, ih, List.map_cons]

theorem decode?_encode (text : String) : decode? (encode text) = some text := by
  have hsome : (text.toList.map some).mapM id = some text.toList := by
    rw [List.mapM_map]
    exact (List.mapM_pure (m := Option) (f := id)).trans (congrArg some (List.map_id _))
  rw [decode?, characters_encode, hsome, Option.map_some, String.ofList_toList]

/-- Well-formed bytes are read as the text that they are the bytes of. -/
theorem decodeLossy_encode (text : String) : decodeLossy (encode text) = text := by
  have hsome : (text.toList.map some).map (·.getD '\uFFFD') = text.toList := by
    rw [List.map_map]
    exact List.map_id _
  rw [decodeLossy, characters_encode, hsome, String.ofList_toList]

end MovieAtoms.Text.Utf8
