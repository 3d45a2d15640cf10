import MovieAtoms.Tag

/-!
# Why decoding fails

A walk fails because of its source, because of the order of atoms in it, or because an atom's bytes
disagree with the sizes and counts that the atom itself declares.
-/

namespace MovieAtoms

/-- An atom whose captured bytes do not agree with its own sizes and counts. -/
inductive LayoutError where
  /-- The brands of a file type do not fill its payload. -/
  | brandCount (declared decoded : Nat)
  /-- A sample table holds another number of entries than it declares. -/
  | entryCount (declared decoded : Nat)
  /-- A sample table declares more entries than their headers would leave room for. -/
  | entryTableOverflow (declared room : Nat)
  /-- A sample description is smaller than the fixed fields of its format. -/
  | entryTooSmall (format : Tag) (size least : Nat)
  /-- An extension is larger than what is left of its sample description. -/
  | extensionOverrun (tag : Tag) (size remaining : Nat)
  /-- An atom ends before its fixed fields do. -/
  | truncated (tag : Tag)
deriving DecidableEq, Repr

def LayoutError.message : LayoutError → String
  | .brandCount declared decoded =>
      "ftyp declares " ++ toString declared ++ " compatible brands, decoded " ++ toString decoded
  | .entryCount declared decoded =>
      "stsd declares " ++ toString declared ++ " entries, decoded " ++ toString decoded
  | .entryTableOverflow declared room =>
      "stsd declares " ++ toString declared ++ " entries but only has room for " ++ toString room
  | .entryTooSmall format size least =>
      "sample description '" ++ format.text ++ "' of size " ++ toString size ++
        " is smaller than its fixed fields (" ++ toString least ++ ")"
  | .extensionOverrun tag size remaining =>
      "extension '" ++ tag.text ++ "' of size " ++ toString size ++
        " overruns the remaining " ++ toString remaining ++ " bytes"
  | .truncated tag => "atom '" ++ tag.text ++ "' ends before its fixed fields"

/-- Why a walk through a movie fails. -/
inductive DecodeError where
  /-- The device behind the source failed. -/
  | deviceFailure (reason : String)
  /-- The source ended inside a header or a payload. -/
  | prematureEnd
  /-- The first atom is no file type. -/
  | notMovie (found : Tag)
  /-- No atom of the tag is left. -/
  | targetNotFound (tag : Tag)
  /-- A size that does not cover the header itself. -/
  | invalidSize (tag : Tag) (size : Nat)
  /-- The source ended inside a payload that was to be passed over. -/
  | shortSkip (wanted skipped : Nat)
  /-- An atom disagrees with itself. -/
  | layout (error : LayoutError)
deriving DecidableEq, Repr

def DecodeError.message : DecodeError → String
  | .deviceFailure reason => "io: " ++ reason
  | .prematureEnd => "premature end of file"
  | .notMovie found =>
      "not a QuickTime file: first atom is '" ++ found.text ++ "', expected 'ftyp'"
  | .targetNotFound tag => "atom '" ++ tag.text ++ "' not found before end of file"
  | .invalidSize tag size =>
      "invalid size " ++ toString size ++ " for atom '" ++ tag.text ++ "'"
  | .shortSkip wanted skipped =>
      "short skip: wanted " ++ toString wanted ++ " bytes, skipped " ++ toString skipped
  | .layout error => error.message

theorem DecodeError.bind_eq_ok {result : Except DecodeError α} {next : α → Except DecodeError β}
    {value : β} :
    (result >>= next) = .ok value ↔ ∃ first, result = .ok first ∧ next first = .ok value := by
  cases result <;> simp [bind, Except.bind]

theorem DecodeError.map_eq_ok {f : α → β} {result : Except DecodeError α} {value : β} :
    result.map f = .ok value ↔ ∃ first, result = .ok first ∧ f first = value := by
  cases result <;> simp [Except.map]

end MovieAtoms
