import MovieAtoms.Proofs.Progress.Loops
import MovieAtoms.Source.Reading

/-!
# Loops of calls to a source

A call may bring less than is missing and may be interrupted, so whoever needs a number of bytes
calls again and again. There are three such loops: one keeps the bytes, one counts and drops them,
and one fills up a header. Here each pass makes one call, and nothing bounds the passes. Main
statements: `readBytes_eq`, `skip_eq`, `tryReadHeader_eq`. Every loop ends, with what the bounded
reader of the same name comes to.

A call that is interrupted brings nothing, so bytes alone do not make these loops end; it takes that
there are finitely many interruptions in front of every delivery.
-/

namespace MovieAtoms.Unbounded

/-- Fewer bytes are missing, or as many with fewer interruptions still to come. -/
def Nearer (missing : σ → Nat) (source : σ → Source) : σ → σ → Prop :=
  InvImage (Prod.Lex (· < ·) (· < ·)) fun state => (missing state, (source state).pending)

theorem wellFounded_nearer (missing : σ → Nat) (source : σ → Source) :
    WellFounded (Nearer missing source) :=
  InvImage.wf _ (WellFounded.prod_lex wellFounded_lt wellFounded_lt)

/-! ### Counted bytes -/

/-- Where a loop stands that needs a number of bytes. -/
structure Counting (α : Type) where
  missing : Nat
  taken : α
  source : Source

/-- Adds each piece to what was taken before. -/
def countLoop (add : α → Bytes → α) : Loop (Counting α) (α × Option Ending × Source) :=
  fun state =>
    Part.some <|
      match state.missing with
      | 0 => .inl (state.taken, none, state.source)
      | extra + 1 =>
          match state.source.read extra with
          | (none, next) => .inr ⟨extra + 1, state.taken, next⟩
          | (some (.ending ending), next) => .inl (state.taken, some ending, next)
          | (some (.piece first more), next) =>
              .inr ⟨extra - more.length, add state.taken (first :: more), next⟩

def gather (count : Nat) (source : Source) : Part (Bytes × Option Ending × Source) :=
  PFun.fix (countLoop (· ++ ·)) ⟨count, [], source⟩

def discard (count : Nat) (source : Source) : Part (Nat × Option Ending × Source) :=
  PFun.fix (countLoop fun passed piece => passed + piece.length) ⟨count, 0, source⟩

/-- What a loop over counted bytes comes to from here. -/
def Counting.outcome (add : α → Bytes → α) (state : Counting α) : α × Option Ending × Source :=
  let (bytes, stop, last) := state.source.gather state.missing
  (add state.taken bytes, stop, last)

section

variable {add : α → Bytes → α} {state next : Counting α}

theorem nearer_of_goes (h : (countLoop add).Goes state next) :
    Nearer Counting.missing Counting.source next state := by
  rw [Loop.Goes, countLoop, Part.mem_some_iff] at h
  split at h
  · cases h
  rename_i extra hmissing
  rw [Nearer, InvImage, hmissing]
  split at h
  · rename_i last hread
    cases h
    exact Prod.Lex.right _ (Source.read_eq_none hread).2
  · cases h
  · rename_i first more last hread
    cases h
    apply Prod.Lex.left
    exact Nat.lt_succ_of_le (Nat.sub_le _ _)

/-- One call at a time, the bounded loop does the same. -/
theorem gather_succ (extra : Nat) (source : Source) :
    source.gather (extra + 1) =
      match source.read extra with
      | (none, next) => next.gather (extra + 1)
      | (some (.ending ending), next) => ([], some ending, next)
      | (some (.piece first more), next) =>
          let (bytes, stop, last) := next.gather (extra - more.length)
          (first :: more ++ bytes, stop, last) := by
  rw [Source.gather, Source.deliver]
  rcases hread : source.read extra with ⟨_ | (⟨first, more⟩ | ending), next⟩
  · simp only [Source.gather]
  · rfl
  · rfl

theorem computes_countLoop (hnil : ∀ taken, add taken [] = taken)
    (happend : ∀ taken front rest, add (add taken front) rest = add taken (front ++ rest))
    (state : Counting α) : (countLoop add).Computes (Counting.outcome add) state := by
  rw [Loop.Computes, countLoop, Counting.outcome]
  cases hmissing : state.missing with
  | zero =>
      left
      simp [Source.gather, hnil]
  | succ extra =>
      rw [gather_succ]
      dsimp only
      rcases hread : state.source.read extra with ⟨_ | (⟨first, more⟩ | ending), next⟩
      · exact Or.inr ⟨⟨extra + 1, state.taken, next⟩, rfl, rfl⟩
      · refine Or.inr ⟨⟨extra - more.length, add state.taken (first :: more), next⟩, rfl, ?_⟩
        simp [Counting.outcome, happend]
      · left
        simp [hnil]

theorem fix_countLoop (hnil : ∀ taken, add taken [] = taken)
    (happend : ∀ taken front rest, add (add taken front) rest = add taken (front ++ rest))
    (state : Counting α) :
    PFun.fix (countLoop add) state = Part.some (state.outcome add) :=
  Loop.fix_eq_some (wellFounded_nearer _ _) (fun _ _ => nearer_of_goes)
    (computes_countLoop hnil happend) state

end

theorem gather_eq (count : Nat) (source : Source) :
    gather count source = Part.some (source.gather count) := by
  rw [gather, fix_countLoop List.append_nil List.append_assoc]
  rfl

/-- Passing bytes over is keeping them, but for what is told of them. -/
theorem discard_eq_gather (count : Nat) (source : Source) :
    source.discard count =
      ((source.gather count).1.length, (source.gather count).2) := by
  induction count, source using Source.discard.induct with
  | case1 source => simp [Source.discard, Source.gather]
  | case2 count source ending next h => simp [Source.discard, Source.gather, h]
  | case3 count source first more next h _ _ _ _ ih =>
      simp [Source.discard, Source.gather, h, ih]
      omega

theorem discard_eq (count : Nat) (source : Source) :
    discard count source = Part.some (source.discard count) := by
  have happend : ∀ (passed : Nat) (front rest : Bytes),
      passed + front.length + rest.length = passed + (front ++ rest).length := by
    intro passed front rest
    rw [List.length_append, Nat.add_assoc]
  rw [discard, fix_countLoop Nat.add_zero happend, discard_eq_gather]
  simp [Counting.outcome]

def readBytes (count : Nat) (source : Source) : Part (Except DecodeError Bytes × Source) :=
  (gather count source).map fun
    | (bytes, none, next) => (.ok bytes, next)
    | (_, some ending, next) => (.error ending.error, next)

def skip (count : Nat) (source : Source) : Part (Except DecodeError Unit × Source) :=
  (discard count source).map fun
    | (_, none, next) => (.ok (), next)
    | (passed, some .endOfInput, next) => (.error (.shortSkip count passed), next)
    | (_, some (.fault fault), next) => (.error fault.error, next)

theorem readBytes_eq (count : Nat) (source : Source) :
    readBytes count source = Part.some (source.readBytes count) := by
  rw [readBytes, gather_eq, Part.map_some]
  rfl

theorem skip_eq (count : Nat) (source : Source) :
    skip count source = Part.some (source.skip count) := by
  rw [skip, discard_eq, Part.map_some]
  rfl

/-! ### Headers -/

/-- A header in its two parts. -/
def readHeader (source : Source) : Part (Except DecodeError Header × Source) :=
  (readBytes 4 source).bind fun
    | (.error error, next) => Part.some (.error error, next)
    | (.ok size, next) =>
        (readBytes 4 next).map fun
          | (.error error, last) => (.error error, last)
          | (.ok tag, last) => (Header.ofBytes (size ++ tag), last)

theorem readHeader_eq (source : Source) :
    readHeader source = Part.some source.readHeader := by
  rw [readHeader, Source.readHeader, readBytes_eq, Part.bind_some]
  rcases source.readBytes 4 with ⟨error | size, next⟩
  · rfl
  · exact (congrArg (Part.map _) (readBytes_eq 4 next)).trans (Part.map_some _ _)

/-- Where the loop that fills up a header stands. -/
structure Filling where
  filled : Bytes
  source : Source

def Filling.missing (state : Filling) : Nat := Header.width - state.filled.length

def fillLoop : Loop Filling (Except DecodeError (Option Header) × Source) := fun state =>
  Part.some <|
    if state.filled.length < Header.width then
      match state.source.read (Header.width - 1 - state.filled.length) with
      | (none, next) => .inr ⟨state.filled, next⟩
      | (some (.ending .endOfInput), next) =>
          .inl (if state.filled = [] then .ok none else .error .prematureEnd, next)
      | (some (.ending (.fault fault)), next) => .inl (.error fault.error, next)
      | (some (.piece first more), next) => .inr ⟨state.filled ++ first :: more, next⟩
    else .inl ((Header.ofBytes state.filled).map some, state.source)

def tryReadHeader (source : Source) : Part (Except DecodeError (Option Header) × Source) :=
  PFun.fix fillLoop ⟨[], source⟩

theorem nearer_of_goes_fill {state next : Filling} (h : fillLoop.Goes state next) :
    Nearer Filling.missing Filling.source next state := by
  rw [Loop.Goes, fillLoop, Part.mem_some_iff] at h
  split at h
  · rename_i hmissing
    split at h
    · rename_i last hread
      cases h
      exact Prod.Lex.right _ (Source.read_eq_none hread).2
    · cases h
    · cases h
    · rename_i first more last hread
      cases h
      apply Prod.Lex.left
      rw [Filling.missing, Filling.missing, List.length_append, List.length_cons]
      omega
  · cases h

theorem computes_fillLoop (state : Filling) :
    fillLoop.Computes (fun state => state.source.fillHeader state.filled) state := by
  rw [Loop.Computes, fillLoop, Source.fillHeader]
  by_cases hmissing : state.filled.length < Header.width
  · rw [if_pos hmissing, dif_pos hmissing]
    rcases hread : state.source.read (Header.width - 1 - state.filled.length) with
      ⟨_ | (⟨first, more⟩ | (_ | fault)), next⟩
    · exact Or.inr ⟨⟨state.filled, next⟩, rfl, rfl⟩
    · exact Or.inr ⟨⟨state.filled ++ first :: more, next⟩, rfl, rfl⟩
    · exact Or.inl rfl
    · exact Or.inl rfl
  · rw [if_neg hmissing, dif_neg hmissing]
    exact Or.inl rfl

theorem tryReadHeader_eq (source : Source) :
    tryReadHeader source = Part.some source.tryReadHeader :=
  Loop.fix_eq_some (wellFounded_nearer _ _) (fun _ _ => nearer_of_goes_fill) computes_fillLoop _

end MovieAtoms.Unbounded
