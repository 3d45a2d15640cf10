import MovieAtoms.Event

/-!
# Decoding with a log

Decoders report events while they work. The log keeps every event in order, up to the end or up to
the first error.

Main statement: the instance `LawfulMonad Logged`, by which decoders may be regrouped freely.
-/

namespace MovieAtoms

/-- What a decoder reported, and its value or error. -/
structure Logged (α : Type) where
  events : List Event
  result : Except DecodeError α
deriving Repr

namespace Logged

/-- Nothing to report but the error. -/
def fail (error : DecodeError) : Logged α := ⟨[], .error error⟩

/-- Reports one event. -/
def report (event : Event) : Logged Unit := ⟨[event], .ok ()⟩

/-- A decoder without events. -/
def ofExcept (result : Except DecodeError α) : Logged α := ⟨[], result⟩

/-- Goes on after success; the log of the second decoder follows that of the first. -/
def andThen (first : Logged α) (next : α → Logged β) : Logged β :=
  match first.result with
  | .ok value =>
      let last := next value
      ⟨first.events ++ last.events, last.result⟩
  | .error error => ⟨first.events, .error error⟩

instance : Monad Logged where
  pure value := ⟨[], .ok value⟩
  bind := andThen

instance : LawfulMonad Logged :=
  LawfulMonad.mk' Logged
    (fun ⟨events, result⟩ => by
      cases result <;> simp [Functor.map, andThen])
    (fun value next => by simp [bind, andThen, pure])
    (fun ⟨events, result⟩ f g => by
      cases result with
      | error => simp [bind, andThen]
      | ok value =>
          simp only [bind, andThen]
          cases (f value).result <;> simp)

/-- Decoders that are put together succeed when both do. -/
theorem bind_result_eq_ok {first : Logged α} {next : α → Logged β} {value : β} :
    (first >>= next).result = .ok value ↔
      ∃ middle, first.result = .ok middle ∧ (next middle).result = .ok value := by
  obtain ⟨events, result⟩ := first
  cases result <;> simp [bind, andThen]

/-- What decoders that are put together come to does not depend on their logs. -/
theorem result_bind (first : Logged α) (next : α → Logged β) :
    (first >>= next).result = first.result.bind fun value => (next value).result := by
  obtain ⟨events, result⟩ := first
  cases result <;> rfl

theorem result_bind_pure (first : Logged α) (f : α → β) :
    (first >>= fun value => pure (f value)).result = first.result.map f := by
  obtain ⟨events, result⟩ := first
  cases result <;> rfl

theorem pure_result_eq_ok {first value : α} :
    (pure first : Logged α).result = .ok value ↔ first = value := by
  simp [pure]

end Logged

end MovieAtoms
