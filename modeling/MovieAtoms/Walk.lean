import MovieAtoms.Atom
import MovieAtoms.Catalogue

/-!
# Walking a movie

A walk starts with the leading file type and then carries out its directives one after the other,
always forward. For each it passes over atoms until one carries the wanted tag. No end of a
container is ever looked for: when the atoms inside one are used up, the search goes on with the
atoms after it.
-/

namespace MovieAtoms

/-- What a walk brings home. -/
structure Extraction where
  /-- The leading atom, which is not among the others. -/
  fileType : FileType
  /-- One record for each directive to read, in order. -/
  atoms : List Atom
deriving DecidableEq, Repr

namespace Walk

/-- Passes over atoms until one carries the tag, and reads that atom's header. -/
def findSibling (tag : Tag) (source : Source) : Logged Header × Source :=
  match _h : source.tryReadHeader with
  | (.error error, next) => (Logged.fail error, next)
  | (.ok none, next) => (Logged.fail (.targetNotFound tag), next)
  | (.ok (some header), next) =>
      if header.tag = tag then (pure header, next)
      else
        match _hskip : next.skip header.payloadLength with
        | (.error error, last) => (⟨[.skippingSibling header tag], .error error⟩, last)
        | (.ok (), last) =>
            let (log, final) := findSibling tag last
            (⟨.skippingSibling header tag :: log.events, log.result⟩, final)
termination_by source.rest.length
decreasing_by
  have hheader := Source.rest_tryReadHeader _h
  have hskip := Source.length_skip_le header.payloadLength next
  rw [_hskip] at hskip
  exact Nat.lt_of_le_of_lt hskip hheader

/-- Does what an operation asks for with the atom whose header was just read. -/
def carryOut (operation : Operation) (header : Header) : Walk (Option Atom) :=
  match operation with
  | .read => some <$> atom header
  | .stepInto => do
      unless header.tag.isContainer do
        report (.enteringNonContainer header.tag)
      return none
  | .skip => do
      skipPayload header
      return none

/-- Carries out directives of which the first has the given index. -/
def carryOutAll (index : Nat) : List Directive → Walk (List Atom)
  | [] => return []
  | directive :: others => do
      let header ← findSibling directive.tag
      report (.executing index directive header.size)
      let found ← carryOut directive.operation header
      let rest ← carryOutAll (index + 1) others
      return found.toList ++ rest

def leadingFileType : Walk FileType := do
  let header ← ofSource Source.readHeader
  if header.tag = Tag.fileType then
    let found ← fileType header
    report (.fileType found.majorBrand found.isMovie)
    return found
  else fail (.notMovie header.tag)

def run (directives : List Directive) : Walk Extraction := do
  let fileType ← leadingFileType
  let atoms ← carryOutAll 0 directives
  return { fileType, atoms }

end Walk

end MovieAtoms
