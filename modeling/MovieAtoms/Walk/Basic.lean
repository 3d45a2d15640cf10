import MovieAtoms.Logged
import MovieAtoms.Source.Reading

/-!
# Work on a source with a log

A walk takes bytes off a source, reports events, and comes to a value or an error. Whatever the
outcome, the source it leaves holds what was not consumed.
-/

namespace MovieAtoms

/-- Work on a source: its log and outcome, and the source it leaves. -/
def Walk (α : Type) := Source → Logged α × Source

namespace Walk

def ofSource (work : Source → Except DecodeError α × Source) : Walk α := fun source =>
  let (result, next) := work source
  (Logged.ofExcept result, next)

/-- Work on captured bytes leaves the source alone. -/
def ofLogged (work : Logged α) : Walk α := fun source => (work, source)

def fail (error : DecodeError) : Walk α := ofLogged (Logged.fail error)

def report (event : Event) : Walk Unit := ofLogged (Logged.report event)

/-- Goes on after success with the source that is left. -/
def andThen (first : Walk α) (next : α → Walk β) : Walk β := fun source =>
  match first source with
  | (⟨events, .ok value⟩, rest) =>
      let (log, last) := next value rest
      (⟨events ++ log.events, log.result⟩, last)
  | (⟨events, .error error⟩, rest) => (⟨events, .error error⟩, rest)

instance : Monad Walk where
  pure value := ofLogged (pure value)
  bind := andThen

def payload (header : Header) : Walk Bytes := ofSource (Source.readBytes header.payloadLength)

def skipPayload (header : Header) : Walk Unit := ofSource (Source.skip header.payloadLength)

end Walk

end MovieAtoms
