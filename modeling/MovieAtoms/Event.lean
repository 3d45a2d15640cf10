import MovieAtoms.Directive
import MovieAtoms.Header

/-!
# Events of a walk

A walk reports what it does: the movie it found, the atoms it passed over, the directives it
carried out and the atoms it decoded.

Main statement: `Level.admits_ofVerbosity`, by which each request for more of a log lets one more
level into it.
-/

namespace MovieAtoms

/-- How much attention an event deserves. -/
inductive Level where
  | warn
  | debug
  | trace
deriving DecidableEq, Repr

/-- Whether a log that is kept down to the first level holds events of the second. -/
def Level.admits : Level → Level → Bool
  | .trace, _ | .debug, .debug | _, .warn => true
  | _, _ => false

/-- The level that a log is kept down to when more of it is asked for so many times. -/
def Level.ofVerbosity : Nat → Level
  | 0 => .warn
  | 1 => .debug
  | _ => .trace

/-- How many times more of a log has to be asked for until it holds events of a level. -/
def Level.verbosity : Level → Nat
  | .warn => 0
  | .debug => 1
  | .trace => 2

theorem Level.admits_ofVerbosity {count : Nat} {level : Level} :
    (ofVerbosity count).admits level ↔ level.verbosity ≤ count := by
  rcases count with _ | _ | count <;> cases level <;> simp [ofVerbosity, admits, verbosity]

/-- A step of a walk that is worth a report. -/
inductive Event where
  /-- The leading file type was decoded. -/
  | fileType (majorBrand : Tag) (isMovie : Bool)
  /-- The atom that a directive looks for was found. -/
  | executing (index : Nat) (directive : Directive) (size : UInt32)
  /-- An atom in front of the wanted one is passed over. -/
  | skippingSibling (header : Header) (wanted : Tag)
  | decodedAtom (header : Header)
  /-- An atom that is stepped into is not known to hold other atoms. -/
  | enteringNonContainer (tag : Tag)
  | keepingSound (size : UInt32)
  | skippingDescription (format : Tag) (size : UInt32)
  | ignoringPadding (bytes : Nat)
deriving DecidableEq, Repr

namespace Event

def level : Event → Level
  | .fileType .. | .executing .. | .decodedAtom .. => .debug
  | .enteringNonContainer .. => .warn
  | .skippingSibling .. | .keepingSound .. | .skippingDescription .. | .ignoringPadding .. => .trace

def message : Event → String
  | .fileType .. => "file type"
  | .executing .. => "executing"
  | .skippingSibling .. => "skipping sibling"
  | .decodedAtom .. => "decoded atom"
  | .enteringNonContainer .. => "stepping into an atom that is not a known container"
  | .keepingSound .. => "keeping sound sample description opaque"
  | .skippingDescription .. => "skipping unsupported sample description"
  | .ignoringPadding .. => "ignoring zero padding after extensions"

/-- The named values that go with an event, as text. -/
def details : Event → List (String × String)
  | .fileType majorBrand isMovie =>
      [("major", majorBrand.text), ("quicktime", toString isMovie)]
  | .executing index directive size =>
      [("index", toString index), ("directive", directive.text), ("size", toString size.toNat)]
  | .skippingSibling header wanted =>
      [("typ", header.tag.text), ("size", toString header.size.toNat), ("wanted", wanted.text)]
  | .decodedAtom header =>
      [("typ", header.tag.text), ("size", toString header.size.toNat)]
  | .enteringNonContainer tag => [("typ", tag.text)]
  | .keepingSound size => [("size", toString size.toNat)]
  | .skippingDescription format size =>
      [("format", format.text), ("size", toString size.toNat)]
  | .ignoringPadding bytes => [("bytes", toString bytes)]

end Event

end MovieAtoms
