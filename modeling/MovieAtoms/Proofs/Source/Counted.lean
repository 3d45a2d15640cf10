import MovieAtoms.Proofs.Source.Contents

/-!
# Capturing bytes and passing over them

Bytes that are counted off a source are either kept or dropped. Each is done by a loop of its own,
with its own error where the input ends too early. Main statement: `countedReaders_agree`, by which
the two loops take the same bytes and succeed on the same sources, and differ in nothing but that
error.

For a count of zero neither loop asks the source for anything. So zero bytes can be had from a source
that is used up, and from one that has failed.
-/

namespace MovieAtoms.Source

/-- How keeping the next `count` bytes of a source and dropping them go together. -/
structure CountedReadersAgree (source : Source) (count : Nat) : Prop where
  rest : (source.readBytes count).2.rest = (source.skip count).2.rest
  taken : source.rest.length - (source.readBytes count).2.rest.length =
    min count source.rest.length
  succeeds : (∃ bytes, (source.readBytes count).1 = .ok bytes) ↔ (source.skip count).1 = .ok ()
  enough : (source.skip count).1 = .ok () ↔ count ≤ source.rest.length
  /-- What is kept are the bytes that left the source, in their order. -/
  captured : ∀ bytes, (source.readBytes count).1 = .ok bytes ↔
    source.rest = bytes ++ (source.readBytes count).2.rest ∧ bytes.length = count
  ended : source.rest.length < count → source.ending = .endOfInput →
    (source.readBytes count).1 = .error .prematureEnd ∧
      (source.skip count).1 = .error (.shortSkip count source.rest.length)
  failed : ∀ fault, source.rest.length < count → source.ending = .fault fault →
    (source.readBytes count).1 = .error fault.error ∧ (source.skip count).1 = .error fault.error
  /-- Zero bytes leave the source just as it was. -/
  nothing : count = 0 → source.readBytes count = (.ok [], source) ∧
    source.skip count = (.ok (), source)

variable {source : Source} {count : Nat}

/-! ### Where the bytes are there -/

theorem readBytes_of_enough (h : count ≤ source.rest.length) :
    (source.readBytes count).1 = .ok (source.rest.take count) ∧
      (source.readBytes count).2.rest = source.rest.drop count :=
  (readBytes_brings h source.ending).eq rfl rfl

theorem skip_of_enough (h : count ≤ source.rest.length) :
    (source.skip count).1 = .ok () ∧ (source.skip count).2.rest = source.rest.drop count :=
  (skip_brings h source.ending).eq rfl rfl

theorem agree_of_enough (h : count ≤ source.rest.length) : source.CountedReadersAgree count := by
  obtain ⟨hread, hreadRest⟩ := readBytes_of_enough h
  obtain ⟨hskip, hskipRest⟩ := skip_of_enough h
  constructor
  case rest => rw [hreadRest, hskipRest]
  case taken =>
    rw [hreadRest, List.length_drop]
    omega
  case succeeds => simp [hread, hskip]
  case enough => simp [hskip, h]
  case captured =>
    intro bytes
    rw [hread, hreadRest]
    constructor
    · intro hbytes
      cases hbytes
      exact ⟨(List.take_append_drop count source.rest).symm, List.length_take_of_le h⟩
    · rintro ⟨hbytes, rfl⟩
      -- two fronts of the same length in front of the same rest are the same
      have hsplit := (List.take_append_drop bytes.length source.rest).trans hbytes
      rw [List.append_cancel_right hsplit]
  case ended => exact fun hshort => absurd h (Nat.not_le.mpr hshort)
  case failed => exact fun _ hshort => absurd h (Nat.not_le.mpr hshort)
  case nothing =>
    rintro rfl
    simp [readBytes, skip, gather, discard]

/-! ### Where the source stops before -/

theorem readBytes_of_short (h : source.rest.length < count) :
    (source.readBytes count).1 = .error source.ending.error ∧
      (source.readBytes count).2.rest = [] :=
  (readBytes_brings_error h source.ending).eq rfl rfl

theorem skip_of_short (h : source.rest.length < count) :
    (source.skip count).1 = .error (source.ending.skipError count source.rest.length) ∧
      (source.skip count).2.rest = [] :=
  (skip_brings_error h source.ending).eq rfl rfl

theorem rest_of_skip_eq_ok {next : Source} (h : source.skip count = (.ok (), next)) :
    next.rest = source.rest.drop count := by
  rcases Nat.lt_or_ge source.rest.length count with hshort | henough
  · have herror := (skip_of_short hshort).1
    rw [h] at herror
    cases herror
  · have hrest := (skip_of_enough henough).2
    rw [h] at hrest
    exact hrest

theorem agree_of_short (h : source.rest.length < count) : source.CountedReadersAgree count := by
  obtain ⟨hread, hreadRest⟩ := readBytes_of_short h
  obtain ⟨hskip, hskipRest⟩ := skip_of_short h
  constructor
  case rest => rw [hreadRest, hskipRest]
  case taken =>
    rw [hreadRest, List.length_nil]
    omega
  case succeeds => simp [hread, hskip]
  case enough => simp [hskip, h]
  case captured =>
    intro bytes
    rw [hread, hreadRest, List.append_nil]
    constructor
    · intro hbytes
      cases hbytes
    · rintro ⟨rfl, hlength⟩
      exact absurd hlength (Nat.ne_of_lt h)
  case ended =>
    intro _ hending
    rw [hread, hskip, hending]
    exact ⟨rfl, rfl⟩
  case failed =>
    intro fault _ hending
    rw [hread, hskip, hending]
    exact ⟨rfl, rfl⟩
  case nothing =>
    rintro rfl
    exact absurd h (Nat.not_lt_zero _)

/-- Keeping bytes and dropping them take the same bytes off every source, however it delivers them
    and wherever it ends or fails, and succeed where the bytes are there. A source that ends too
    early gives each its own error, and one that fails gives both its failure. -/
theorem countedReaders_agree (source : Source) (count : Nat) :
    source.CountedReadersAgree count := by
  rcases Nat.lt_or_ge source.rest.length count with hshort | henough
  · exact agree_of_short hshort
  · exact agree_of_enough henough

end MovieAtoms.Source
