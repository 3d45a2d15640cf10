import MovieAtoms.Tag

/-!
# The catalogue of atoms

The atoms that are known by name: what each is called in full, and whether it holds nothing but
other atoms, so that stepping into it makes sense. A tag outside the catalogue is an unknown atom.
-/

namespace MovieAtoms

/-- What is known about the atoms of one tag. -/
structure Description where
  tag : Tag
  fullName : String
  isContainer : Bool
  deriving DecidableEq, Repr

namespace Description

/-- An atom that holds nothing but other atoms. -/
def container (a b c d : Char) (fullName : String) : Description :=
  ⟨Tag.spelled a b c d, fullName, true⟩

def leaf (a b c d : Char) (fullName : String) : Description :=
  ⟨Tag.spelled a b c d, fullName, false⟩

end Description

open Description in
/-- The known atoms, from the file's top level down to the extensions of a sample description. -/
def catalogue : List Description := [
  leaf 'f' 't' 'y' 'p' "File Type Atom",
  container 'm' 'o' 'o' 'v' "Movie Atom",
  leaf 'm' 'd' 'a' 't' "Movie Data Atom",
  leaf 'f' 'r' 'e' 'e' "Free Space Atom",
  leaf 's' 'k' 'i' 'p' "Skip Atom",
  leaf 'w' 'i' 'd' 'e' "Wide Atom",
  leaf 'm' 'v' 'h' 'd' "Movie Header Atom",
  container 't' 'r' 'a' 'k' "Track Atom",
  container 'u' 'd' 't' 'a' "User Data Atom",
  leaf 't' 'k' 'h' 'd' "Track Header Atom",
  container 'e' 'd' 't' 's' "Edit Atom",
  container 'm' 'd' 'i' 'a' "Media Atom",
  leaf 'm' 'd' 'h' 'd' "Media Header Atom",
  leaf 'h' 'd' 'l' 'r' "Handler Reference Atom",
  container 'm' 'i' 'n' 'f' "Media Information Atom",
  leaf 'v' 'm' 'h' 'd' "Video Media Information Header",
  leaf 's' 'm' 'h' 'd' "Sound Media Information Header",
  container 'd' 'i' 'n' 'f' "Data Information Atom",
  container 's' 't' 'b' 'l' "Sample Table Atom",
  leaf 's' 't' 's' 'd' "Sample Description Atom",
  leaf 's' 't' 't' 's' "Time-to-Sample Atom",
  leaf 's' 't' 's' 's' "Sync Sample Atom",
  leaf 's' 't' 's' 'c' "Sample-to-Chunk Atom",
  leaf 's' 't' 's' 'z' "Sample Size Atom",
  leaf 's' 't' 'c' 'o' "Chunk Offset Atom",
  leaf 'c' 'o' '6' '4' "64-bit Chunk Offset Atom",
  leaf 'a' 'v' 'c' '1' "H.264 Video Sample Description",
  leaf 's' 'o' 'w' 't' "Little-Endian PCM Sample Description",
  leaf 'c' 'o' 'l' 'r' "Color Parameter Atom",
  leaf 'a' 'v' 'c' 'C' "AVC Decoder Configuration Atom",
  leaf 'p' 'a' 's' 'p' "Pixel Aspect Ratio Atom",
  leaf 'b' 't' 'r' 't' "Bit Rate Atom",
  leaf 'f' 'i' 'e' 'l' "Field Handling Atom"]

namespace Tag

def describe? (tag : Tag) : Option Description :=
  catalogue.find? fun entry => entry.tag = tag

def fullName (tag : Tag) : String :=
  match tag.describe? with
  | some entry => entry.fullName
  | none => "Unknown Atom"

/-- Whether an atom of this tag is known to hold nothing but other atoms. -/
def isContainer (tag : Tag) : Bool :=
  match tag.describe? with
  | some entry => entry.isContainer
  | none => false

/-- A short label: a known tag with a capital in front and small letters after it, an unknown one
    in brackets. -/
def label (tag : Tag) : String :=
  match tag.describe? with
  | some _ => tag.text.toLower.capitalize
  | none => "Unknown(" ++ tag.text ++ ")"

end Tag

end MovieAtoms
