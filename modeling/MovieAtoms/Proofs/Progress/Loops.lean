import Mathlib.Data.PFun
import Mathlib.Logic.Relation
import MovieAtoms.Header

/-!
# Loops that nothing bounds

The body of a loop takes a state to an outcome, which ends the loop, or to the state of the next
pass. `PFun.fix` runs the body until it ends, so a loop that never ends has no value, and that a
loop ends is a statement about it. Main statements: `fix_eq_some`, by which a loop whose passes lead
down a well-founded order comes to an outcome from every state, and `Consumes.count_le`, by which a
loop over bytes makes no more passes than there are headers' widths in them.
-/

namespace MovieAtoms

/-- The body of a loop: an outcome on the left, the next state on the right. It may hold loops
    itself, and then it may have no value. -/
abbrev Loop (σ β : Type) := σ → Part (β ⊕ σ)

namespace Loop

/-- A pass through the loop leads from a state to the next. -/
def Goes (loop : Loop σ β) (state next : σ) : Prop := Sum.inr next ∈ loop state

/-- Any number of passes lead from a state to another. -/
abbrev Reaches (loop : Loop σ β) : σ → σ → Prop := Relation.ReflTransGen loop.Goes

/-- Every pass that leads on takes bytes off the front of those that are left, and no fewer than a
    header has. -/
def Consumes (loop : Loop σ β) (unread : σ → Bytes) : Prop :=
  ∀ state next, loop.Goes state next →
    ∃ taken, unread state = taken ++ unread next ∧ Header.width ≤ taken.length

/-- The outcome is right for a state if the loop ends there with it, or goes on to a state of the
    same outcome. -/
def Computes (loop : Loop σ β) (outcome : σ → β) (state : σ) : Prop :=
  loop state = Part.some (.inl (outcome state)) ∨
    ∃ next, loop state = Part.some (.inr next) ∧ outcome next = outcome state

/-- A loop over bytes makes progress from a start: its passes consume what they read, `count` goes up
    no further than the width of a header goes into the unread bytes, and the loop ends as it
    should. -/
structure Progresses (loop : Loop σ β) (unread : σ → Bytes) (count : σ → Nat) (start : σ)
    (outcome : β) : Prop where
  consumes : loop.Consumes unread
  count_le : ∀ state, loop.Reaches start state →
    count state ≤ (unread start).length / Header.width
  ends : PFun.fix loop start = Part.some outcome

variable {loop : Loop σ β} {outcome : σ → β} {unread : σ → Bytes} {state next : σ}

theorem goes_of_eq_some (h : loop state = Part.some (.inr next)) : loop.Goes state next := by
  rw [Goes, h]
  exact Part.mem_some _

/-! ### Loops that end -/

/-- A loop that goes down a well-founded order comes to the outcome that is right all along. -/
theorem fix_eq_some {below : σ → σ → Prop} (hbelow : WellFounded below)
    (hgoes : ∀ state next, loop.Goes state next → below next state)
    (h : ∀ state, loop.Computes outcome state) (state : σ) :
    PFun.fix loop state = Part.some (outcome state) := by
  induction state using hbelow.induction with
  | h state ih =>
      rcases h state with hend | ⟨next, hnext, hsame⟩
      · apply Part.eq_some_iff.mpr
        apply PFun.fix_stop
        rw [hend]
        exact Part.mem_some _
      · have hpass := goes_of_eq_some hnext
        rw [PFun.fix_fwd_eq hpass, ih next (hgoes state next hpass), hsame]

/-- What a loop comes to, it comes to in a state that it reaches. -/
theorem exists_reaches_of_mem_fix {value : β} (h : value ∈ PFun.fix loop state) :
    ∃ last, loop.Reaches state last ∧ Sum.inl value ∈ loop last := by
  refine PFun.fixInduction' h ?_ ?_
  · intro last hend
    exact ⟨last, .refl, hend⟩
  · rintro first next - hgoes ⟨last, hreaches, hend⟩
    exact ⟨last, .head hgoes hreaches, hend⟩

/-! ### Loops over bytes -/

theorem Consumes.length_le (hloop : loop.Consumes unread) (hgoes : loop.Goes state next) :
    Header.width + (unread next).length ≤ (unread state).length := by
  obtain ⟨taken, hunread, hlength⟩ := hloop state next hgoes
  rw [hunread, List.length_append]
  exact Nat.add_le_add_right hlength _

theorem Consumes.fix_eq_some (hloop : loop.Consumes unread)
    (h : ∀ state, loop.Computes outcome state) (state : σ) :
    PFun.fix loop state = Part.some (outcome state) := by
  refine Loop.fix_eq_some (measure fun state => (unread state).length).wf ?_ h state
  intro state next hgoes
  have hlength := hloop.length_le hgoes
  rw [Header.width] at hlength
  change (unread next).length < (unread state).length
  omega

/-- Whatever grows by one in every pass is paid for by the bytes that the passes take. -/
theorem Consumes.count_le (hloop : loop.Consumes unread) {count : σ → Nat}
    (hcount : ∀ state next, loop.Goes state next → count next = count state + 1)
    (hreaches : loop.Reaches state next) :
    Header.width * count next + (unread next).length ≤
      Header.width * count state + (unread state).length := by
  induction hreaches with
  | refl => exact Nat.le_refl _
  | @tail middle next _ hgoes ih =>
      have hlength := hloop.length_le hgoes
      rw [hcount middle next hgoes, Nat.mul_add]
      omega

theorem Consumes.progresses (hloop : loop.Consumes unread) {count : σ → Nat}
    (hcount : ∀ state next, loop.Goes state next → count next = count state + 1)
    (hstart : count state = 0) (h : ∀ state, loop.Computes outcome state) :
    loop.Progresses unread count state (outcome state) where
  consumes := hloop
  count_le := by
    intro last hreaches
    have hpaid := hloop.count_le hcount hreaches
    rw [hstart, Nat.mul_zero, Nat.zero_add] at hpaid
    apply (Nat.le_div_iff_mul_le (by decide)).mpr
    rw [Nat.mul_comm]
    exact Nat.le_trans (Nat.le_add_right _ _) hpaid
  ends := hloop.fix_eq_some h state

theorem Progresses.exists_last {count : σ → Nat} {value : β}
    (h : loop.Progresses unread count state value) :
    ∃ last, loop.Reaches state last ∧ Sum.inl value ∈ loop last := by
  apply exists_reaches_of_mem_fix
  rw [h.ends]
  exact Part.mem_some value

end Loop

end MovieAtoms
