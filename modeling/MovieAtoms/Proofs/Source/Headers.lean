import MovieAtoms.Proofs.Source.Contents

/-!
# Two readers of headers

A header is read in two ways: in two parts of four bytes, where there must be one, and by a loop that
fills up eight bytes, where the input may end in front of it. The two differ at a clean end of the
input and nowhere else. Main statement: `headerReaders_agree`.

A source that fails where its bytes are used up is not at a clean end, even if the device calls its
failure an end.
-/

namespace MovieAtoms.Source

/-- No byte is left, and the source ends without a failure. -/
def AtCleanEnd (source : Source) : Prop := source.rest = [] ∧ source.ending = .endOfInput

/-- How the reader that expects a header and the reader that looks for one go together. -/
structure HeaderReadersAgree (source : Source) : Prop where
  rest : source.tryReadHeader.2.rest = source.readHeader.2.rest
  found : ∀ header : Header,
    source.tryReadHeader.1 = .ok (some header) ↔ source.readHeader.1 = .ok header
  none : source.tryReadHeader.1 = .ok none ↔ source.AtCleanEnd
  missing : source.AtCleanEnd → source.readHeader.1 = .error .prematureEnd
  failed : ¬source.AtCleanEnd →
    ∀ error, source.tryReadHeader.1 = .error error ↔ source.readHeader.1 = .error error
  /-- A whole header is taken, and refused only for its size. -/
  whole : ∀ (header : Header) (tail : Bytes), source.rest = header.toBytes ++ tail →
    source.readHeader.1 = header.checked ∧ source.readHeader.2.rest = tail
  /-- Less than a header is taken whole, and the error is the one that ends the source. -/
  short : source.rest.length < Header.width →
    source.readHeader.1 = .error source.ending.error ∧ source.readHeader.2.rest = []

variable {source : Source}

theorem AtCleanEnd.length_lt (h : source.AtCleanEnd) : source.rest.length < Header.width := by
  rw [h.1]
  decide

theorem readHeader_of_whole {header : Header} {tail : Bytes}
    (h : source.rest = header.toBytes ++ tail) :
    source.readHeader.1 = header.checked ∧ source.readHeader.2.rest = tail :=
  (readHeader_brings_checked header tail source.ending).eq h rfl

theorem readHeader_of_short (h : source.rest.length < Header.width) :
    source.readHeader.1 = .error source.ending.error ∧ source.readHeader.2.rest = [] :=
  (readHeader_brings_error h source.ending).eq rfl rfl

theorem tryReadHeader_of_atCleanEnd (h : source.AtCleanEnd) :
    source.tryReadHeader.1 = .ok none ∧ source.tryReadHeader.2.rest = [] :=
  (tryReadHeader_brings_boundary .endOfInput).eq h.1 h.2

theorem tryReadHeader_of_short (hshort : source.rest.length < Header.width)
    (h : ¬source.AtCleanEnd) :
    source.tryReadHeader.1 = .error source.ending.error ∧ source.tryReadHeader.2.rest = [] := by
  by_cases hrest : source.rest = []
  · -- with no byte left, only a failure keeps the end from being clean
    cases hending : source.ending with
    | endOfInput => exact absurd ⟨hrest, hending⟩ h
    | fault cause => exact (tryReadHeader_brings_boundary (.fault cause)).eq hrest hending
  · exact (tryReadHeader_brings_error hrest hshort source.ending).eq rfl rfl

/-- A header that is found is there whole, and nothing else is taken. -/
theorem rest_of_tryReadHeader_eq_some {next : Source} {header : Header}
    (h : source.tryReadHeader = (.ok (some header), next)) :
    Header.width ≤ source.rest.length ∧ next.rest = source.rest.drop Header.width := by
  have hlong : Header.width ≤ source.rest.length := by
    apply Nat.le_of_not_lt
    intro hshort
    by_cases hend : source.AtCleanEnd
    · have hnone := (tryReadHeader_of_atCleanEnd hend).1
      rw [h] at hnone
      cases hnone
    · have herror := (tryReadHeader_of_short hshort hend).1
      rw [h] at herror
      cases herror
  have hrest := ((tryReadHeader_brings hlong source.ending).eq rfl rfl).2
  rw [h] at hrest
  exact ⟨hlong, hrest⟩

/-- Away from a clean end the two readers do the same. -/
theorem tryReadHeader_eq_readHeader (h : ¬source.AtCleanEnd) :
    source.tryReadHeader.1 = source.readHeader.1.map some ∧
      source.tryReadHeader.2.rest = source.readHeader.2.rest := by
  rcases Nat.lt_or_ge source.rest.length Header.width with hshort | hlong
  · obtain ⟨htry, htryRest⟩ := tryReadHeader_of_short hshort h
    obtain ⟨hread, hreadRest⟩ := readHeader_of_short hshort
    rw [htry, hread, htryRest, hreadRest]
    exact ⟨rfl, rfl⟩
  · obtain ⟨header, tail, hrest⟩ := Header.exists_eq_toBytes_append hlong
    obtain ⟨htry, htryRest⟩ :=
      (tryReadHeader_brings_checked header tail source.ending).eq hrest rfl
    obtain ⟨hread, hreadRest⟩ := readHeader_of_whole hrest
    rw [htry, hread, htryRest, hreadRest]
    exact ⟨rfl, rfl⟩

/-- The two readers of headers take the same bytes and find the same header or the same error on
    every source, however it delivers its bytes and wherever it ends or fails. Only at a clean end of
    the input does one find no header where the other misses it. -/
theorem headerReaders_agree (source : Source) : source.HeaderReadersAgree := by
  by_cases hend : source.AtCleanEnd
  · obtain ⟨htry, htryRest⟩ := tryReadHeader_of_atCleanEnd hend
    obtain ⟨hread, hreadRest⟩ := readHeader_of_short hend.length_lt
    rw [hend.2] at hread
    constructor
    case rest => rw [htryRest, hreadRest]
    case found => simp [htry, hread]
    case none => simp [htry, hend]
    case missing => exact fun _ => hread
    case failed => exact fun h => absurd hend h
    case whole => exact fun _ _ => readHeader_of_whole
    case short => exact readHeader_of_short
  · obtain ⟨hresult, hrest⟩ := tryReadHeader_eq_readHeader hend
    constructor
    case rest => exact hrest
    case missing => exact fun h => absurd h hend
    case whole => exact fun _ _ => readHeader_of_whole
    case short => exact readHeader_of_short
    all_goals
      rw [hresult]
      cases source.readHeader.1 <;> simp [Except.map, hend]

end MovieAtoms.Source
