import MovieAtoms.Atom.FileType
import MovieAtoms.Atom.MovieHeader
import MovieAtoms.Atom.SampleTable
import MovieAtoms.Walk.Basic

/-!
# Atoms

What a walk brings home: the record of an atom, decoded as far as its tag is understood.
-/

namespace MovieAtoms

/-- The record of an atom. -/
inductive Atom where
  | raw (atom : RawAtom)
  | movieHeader (movie : MovieHeader)
  | sampleTable (table : SampleTable)
deriving DecidableEq, Repr

namespace Atom

def header : Atom → Header
  | .raw atom => atom.header
  | .movieHeader movie => movie.header
  | .sampleTable table => table.header

def tag (atom : Atom) : Tag := atom.header.tag

def size (atom : Atom) : UInt32 := atom.header.size

/-- Decodes a captured payload; the tag tells how. -/
def ofPayload (header : Header) (payload : Bytes) : Logged Atom :=
  if header.tag = Tag.movieHeader then
    Logged.ofExcept ((MovieHeader.decode header payload).map .movieHeader)
  else if header.tag = Tag.sampleTable then
    .sampleTable <$> SampleTable.decode header payload
  else return .raw ⟨header, payload⟩

end Atom

namespace Walk

def fileType (header : Header) : Walk FileType := do
  let bytes ← payload header
  ofLogged (Logged.ofExcept (FileType.decode header bytes))

def movieHeader (header : Header) : Walk MovieHeader := do
  let bytes ← payload header
  ofLogged (Logged.ofExcept (MovieHeader.decode header bytes))

def sampleTable (header : Header) : Walk SampleTable := do
  let bytes ← payload header
  ofLogged (SampleTable.decode header bytes)

def rawAtom (header : Header) : Walk RawAtom := do
  return ⟨header, ← payload header⟩

def atom (header : Header) : Walk Atom := do
  let bytes ← payload header
  let atom ← ofLogged (Atom.ofPayload header bytes)
  report (.decodedAtom header)
  return atom

end Walk

end MovieAtoms
