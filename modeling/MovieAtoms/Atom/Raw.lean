import MovieAtoms.Header

/-!
# Raw atoms

An atom that is not decoded any further keeps its payload as it is.
-/

namespace MovieAtoms

structure RawAtom where
  header : Header
  payload : Bytes
deriving DecidableEq, Repr

def RawAtom.toBytes (atom : RawAtom) : Bytes := atom.header.toBytes ++ atom.payload

end MovieAtoms
