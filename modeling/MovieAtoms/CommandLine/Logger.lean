import MovieAtoms.Event

/-!
# The log of a run

The events of a walk are written to the standard error as they come, one line each, by what keeps
the log. Which events are written follows from the command line, unless the environment makes a
choice of its own. How a line looks, and the time in it, is up to what keeps the log.

Main statement: `text_concat`, by which one more event adds its line to what is written, or nothing.
-/

namespace MovieAtoms.CommandLine

/-- What keeps the log of a run. -/
structure Logger where
  /-- The events that the environment chooses, if it makes a choice. -/
  choice? : Option (Event → Bool)
  /-- How the event of a walk with the given number is written, at the time that it comes. -/
  line : Nat → Event → String

namespace Logger

def writes (logger : Logger) (level : Level) (event : Event) : Bool :=
  match logger.choice? with
  | some choice => choice event
  | none => level.admits event.level

/-- What is written of the events of a walk. -/
def text (logger : Logger) (level : Level) (events : List Event) : String :=
  String.join (events.zipIdx.filterMap fun (event, number) =>
    if logger.writes level event then some (logger.line number event) else none)

@[simp] theorem text_nil (logger : Logger) (level : Level) : logger.text level [] = "" := rfl

/-- One more event adds its line, if it is written. -/
theorem text_concat (logger : Logger) (level : Level) (events : List Event) (event : Event) :
    logger.text level (events ++ [event]) = logger.text level events ++
      if logger.writes level event then logger.line events.length event else "" := by
  unfold text
  rw [List.zipIdx_append, List.filterMap_append, String.join_append]
  split <;> simp [*]

/-- The environment chooses no event. -/
def silent : Logger where
  choice? := some fun _ => false
  line _ _ := ""

/-- Writes no time. -/
def timeless : Logger where
  choice? := none
  line _ event :=
    event.message ++ String.join (event.details.map fun (name, value) => " " ++ name ++ "=" ++ value)
      ++ "\n"

end Logger

end MovieAtoms.CommandLine
