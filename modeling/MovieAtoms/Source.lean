import MovieAtoms.DecodeError

/-!
# Byte sources

A source delivers its bytes front to back and cannot go back. One call may bring fewer bytes than
were asked for, and may be interrupted before it brings any; a schedule says how the calls go. A
source may end for good or fail.

Main statement: `deliver_eq`, which says what a delivery brings and leaves without mention of
interruptions.
-/

namespace MovieAtoms

/-- A failure of the device behind a source. -/
inductive Fault where
  /-- The device reports its end as a failure. -/
  | prematureEnd
  | other (reason : String)
deriving DecidableEq, Repr

/-- What comes after the last byte of a source. -/
inductive Ending where
  | endOfInput
  /-- Every further call fails. -/
  | fault (fault : Fault)
deriving DecidableEq, Repr

/-- How one delivery goes. -/
structure Pace where
  /-- The calls that are interrupted before it. -/
  interruptions : Nat
  /-- The bytes that it may bring besides the first one. -/
  extra : Nat
deriving DecidableEq, Repr

/-- Bytes to be read front to back. -/
structure Source where
  /-- The bytes that were not delivered yet. -/
  rest : Bytes
  ending : Ending
  schedule : Nat → Pace
  /-- The deliveries so far. -/
  turn : Nat
  /-- The calls of this turn that were interrupted. -/
  interrupted : Nat

/-- What a source answers when it is not interrupted. -/
inductive Delivery where
  | piece (first : UInt8) (more : Bytes)
  | ending (ending : Ending)
deriving DecidableEq, Repr

namespace Source

def paced (bytes : Bytes) (ending : Ending) (schedule : Nat → Pace) : Source :=
  ⟨bytes, ending, schedule, 0, 0⟩

/-- A source that always delivers as many bytes as were asked for, and then ends. -/
def ofBytes (bytes : Bytes) : Source := paced bytes .endOfInput fun _ => ⟨0, bytes.length⟩

def pace (source : Source) : Pace := source.schedule source.turn

/-- What the next delivery brings when a byte and up to `extra` more are asked for. -/
def nextDelivery (extra : Nat) (source : Source) : Delivery :=
  match source.rest with
  | [] => .ending source.ending
  | first :: rest => .piece first (rest.take (min extra source.pace.extra))

def afterDelivery (extra : Nat) (source : Source) : Source :=
  { source with
    rest := source.rest.drop (min extra source.pace.extra + 1)
    turn := source.turn + 1
    interrupted := 0 }

/-- One call for a byte and up to `extra` more. Nothing is answered when it is interrupted. -/
def read (extra : Nat) (source : Source) : Option Delivery × Source :=
  if source.interrupted < source.pace.interruptions then
    (none, { source with interrupted := source.interrupted + 1 })
  else (some (source.nextDelivery extra), source.afterDelivery extra)

/-- The interruptions still to come before the next delivery. -/
def pending (source : Source) : Nat := source.pace.interruptions - source.interrupted

theorem read_eq_none {extra : Nat} {source next : Source} (h : source.read extra = (none, next)) :
    next = { source with interrupted := source.interrupted + 1 } ∧
      next.pending < source.pending := by
  unfold read at h
  split at h
  · rename_i hlt
    cases h
    exact ⟨rfl, Nat.sub_lt_sub_left hlt (Nat.lt_succ_self _)⟩
  · simp at h

/-- Calls until one is not interrupted. -/
def deliver (extra : Nat) (source : Source) : Delivery × Source :=
  match _h : source.read extra with
  | (some delivery, next) => (delivery, next)
  | (none, next) => deliver extra next
termination_by source.pending
decreasing_by exact (read_eq_none _h).2

theorem deliver_eq (extra : Nat) (source : Source) :
    source.deliver extra = (source.nextDelivery extra, source.afterDelivery extra) := by
  induction source using deliver.induct extra with
  | case1 source delivery next h =>
      rw [deliver, h]
      unfold read at h
      split at h
      · simp at h
      · cases h
        rfl
  | case2 source next h ih =>
      rw [deliver, h]
      obtain ⟨rfl, -⟩ := read_eq_none h
      exact ih

end Source

end MovieAtoms
