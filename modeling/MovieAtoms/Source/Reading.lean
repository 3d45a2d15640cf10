import MovieAtoms.Header
import MovieAtoms.Source

/-!
# Reading from a source

Bytes are captured or passed over by the count, in as many deliveries as it takes. Nothing is asked
of the source once the count is reached, so zero bytes can be read where the source has failed.

Main statements: `rest_gather` and `rest_discard`, by which exactly the gathered or counted bytes
leave the source, and `rest_tryReadHeader`, by which reading a header makes progress.
-/

namespace MovieAtoms

def Fault.error : Fault → DecodeError
  | .prematureEnd => .prematureEnd
  | .other reason => .deviceFailure reason

/-- What it means that a source stops short of the bytes that are needed. -/
def Ending.error : Ending → DecodeError
  | .endOfInput => .prematureEnd
  | .fault cause => cause.error

namespace Source

/-- The next `count` bytes, or all there are and what stopped them. -/
def gather : (count : Nat) → Source → Bytes × Option Ending × Source
  | 0, source => ([], none, source)
  | count + 1, source =>
      match source.deliver count with
      | (.ending ending, next) => ([], some ending, next)
      | (.piece first more, next) =>
          let (bytes, stop, last) := gather (count - more.length) next
          (first :: more ++ bytes, stop, last)
termination_by count => count

/-- Passes over the next `count` bytes and counts them, with what stopped them early. -/
def discard : (count : Nat) → Source → Nat × Option Ending × Source
  | 0, source => (0, none, source)
  | count + 1, source =>
      match source.deliver count with
      | (.ending ending, next) => (0, some ending, next)
      | (.piece _ more, next) =>
          let (passed, stop, last) := discard (count - more.length) next
          (more.length + 1 + passed, stop, last)
termination_by count => count

def readBytes (count : Nat) (source : Source) : Except DecodeError Bytes × Source :=
  match source.gather count with
  | (bytes, none, next) => (.ok bytes, next)
  | (_, some ending, next) => (.error ending.error, next)

def skip (count : Nat) (source : Source) : Except DecodeError Unit × Source :=
  match source.discard count with
  | (_, none, next) => (.ok (), next)
  | (passed, some .endOfInput, next) => (.error (.shortSkip count passed), next)
  | (_, some (.fault fault), next) => (.error fault.error, next)

/-- A header where there must be one: its size and then its tag. -/
def readHeader (source : Source) : Except DecodeError Header × Source :=
  match source.readBytes 4 with
  | (.error error, next) => (.error error, next)
  | (.ok size, next) =>
      match next.readBytes 4 with
      | (.error error, last) => (.error error, last)
      | (.ok tag, last) => (Header.ofBytes (size ++ tag), last)

/-- Calls until the bytes of a header are filled up. The end of the input is clean only in front of
    the first of them. -/
def fillHeader (filled : Bytes) (source : Source) : Except DecodeError (Option Header) × Source :=
  if _hfilled : filled.length < Header.width then
    match _h : source.read (Header.width - 1 - filled.length) with
    | (none, next) => fillHeader filled next
    | (some (.ending .endOfInput), next) =>
        (if filled = [] then .ok none else .error .prematureEnd, next)
    | (some (.ending (.fault fault)), next) => (.error fault.error, next)
    | (some (.piece first more), next) => fillHeader (filled ++ first :: more) next
  else ((Header.ofBytes filled).map some, source)
termination_by (Header.width - filled.length, source.pending)
decreasing_by
  · exact Prod.Lex.right _ (read_eq_none _h).2
  · refine Prod.Lex.left _ _ ?_
    rw [List.length_append, List.length_cons]
    omega

/-- A header, or none at the clean end of the input. -/
def tryReadHeader (source : Source) : Except DecodeError (Option Header) × Source :=
  fillHeader [] source

def readInts (count : Nat) (source : Source) : Except DecodeError (List Int32) × Source :=
  match source.readBytes (4 * count) with
  | (.error error, next) => (.error error, next)
  | (.ok bytes, next) =>
      match Field.ints count bytes with
      | some (values, _) => (.ok values, next)
      | none => (.error .prematureEnd, next)

/-! ### What leaves the source -/

theorem rest_deliver_piece {extra : Nat} {source next : Source} {first : UInt8} {more : Bytes}
    (h : source.deliver extra = (.piece first more, next)) :
    source.rest = first :: more ++ next.rest ∧ more.length ≤ extra := by
  rw [deliver_eq, Prod.mk.injEq] at h
  obtain ⟨hpiece, rfl⟩ := h
  unfold nextDelivery at hpiece
  split at hpiece
  · simp at hpiece
  · rename_i hrest
    cases hpiece
    exact ⟨by simp [afterDelivery, hrest],
      Nat.le_trans (List.length_take_le ..) (Nat.min_le_left ..)⟩

theorem rest_deliver_ending {extra : Nat} {source next : Source} {ending : Ending}
    (h : source.deliver extra = (.ending ending, next)) :
    source.rest = [] ∧ next.rest = [] ∧ ending = source.ending := by
  rw [deliver_eq, Prod.mk.injEq] at h
  obtain ⟨hending, rfl⟩ := h
  unfold nextDelivery at hending
  split at hending
  · rename_i hrest
    cases hending
    simp [afterDelivery, hrest]
  · simp at hending

theorem rest_gather (count : Nat) (source : Source) :
    source.rest = (source.gather count).1 ++ (source.gather count).2.2.rest := by
  induction count, source using gather.induct with
  | case1 source => simp [gather]
  | case2 count source ending next h =>
      obtain ⟨hrest, hnext, -⟩ := rest_deliver_ending h
      rw [gather, h]
      simp [hrest, hnext]
  | case3 count source first more next h _ _ _ _ ih =>
      rw [gather, h, (rest_deliver_piece h).1]
      simp [← ih]

theorem rest_discard (count : Nat) (source : Source) :
    source.rest.drop (source.discard count).1 = (source.discard count).2.2.rest := by
  induction count, source using discard.induct with
  | case1 source => simp [discard]
  | case2 count source ending next h =>
      obtain ⟨hrest, hnext, -⟩ := rest_deliver_ending h
      rw [discard, h]
      simp [hrest, hnext]
  | case3 count source _ more next h _ _ _ _ ih =>
      rw [discard, h, (rest_deliver_piece h).1, ← ih]
      simp [Nat.add_right_comm _ 1, List.drop_append]

theorem length_skip_le (count : Nat) (source : Source) :
    (source.skip count).2.rest.length ≤ source.rest.length := by
  have h := congrArg List.length (rest_discard count source)
  rw [List.length_drop] at h
  have hsnd : (source.skip count).2 = (source.discard count).2.2 := by
    unfold skip
    split <;> rename_i heq <;> rw [heq]
  rw [hsnd]
  omega

/-- A header fills up by deliveries, whatever interrupts them. -/
theorem fillHeader_eq (filled : Bytes) (source : Source) (hfilled : filled.length < Header.width) :
    source.fillHeader filled =
      match source.deliver (Header.width - 1 - filled.length) with
      | (.ending .endOfInput, next) =>
          (if filled = [] then .ok none else .error .prematureEnd, next)
      | (.ending (.fault fault), next) => (.error fault.error, next)
      | (.piece first more, next) => next.fillHeader (filled ++ first :: more) := by
  induction source using deliver.induct (Header.width - 1 - filled.length) with
  | case1 source delivery next hread =>
      rw [fillHeader, dif_pos hfilled, deliver, hread]
      rcases delivery with _ | (_ | _) <;> rfl
  | case2 source next hread ih =>
      rw [fillHeader, dif_pos hfilled, deliver, hread]
      exact ih

theorem length_fillHeader_le (filled : Bytes) (source : Source) :
    (source.fillHeader filled).2.rest.length ≤ source.rest.length := by
  by_cases hfilled : filled.length < Header.width
  · rw [fillHeader_eq filled source hfilled]
    split
    · rename_i next heq
      simp [(rest_deliver_ending heq).2.1]
    · rename_i fault next heq
      simp [(rest_deliver_ending heq).2.1]
    · rename_i first more next heq
      have hpiece := congrArg List.length (rest_deliver_piece heq).1
      have hrest := length_fillHeader_le (filled ++ first :: more) next
      simp only [List.length_append, List.length_cons] at hpiece
      omega
  · apply Nat.le_of_eq
    rw [fillHeader, dif_neg hfilled]
termination_by Header.width - filled.length
decreasing_by
  rw [List.length_append, List.length_cons]
  omega

/-- A header that was read has left the source. -/
theorem rest_tryReadHeader {source next : Source} {header : Header}
    (h : source.tryReadHeader = (.ok (some header), next)) :
    next.rest.length < source.rest.length := by
  rw [tryReadHeader, fillHeader_eq [] source (by decide)] at h
  split at h
  · simp at h
  · simp at h
  · rename_i first more middle heq
    have hpiece := congrArg List.length (rest_deliver_piece heq).1
    have hrest := length_fillHeader_le ([] ++ first :: more) middle
    rw [h] at hrest
    change next.rest.length ≤ _ at hrest
    simp only [List.cons_append, List.length_append, List.length_cons] at hpiece
    omega

end Source

end MovieAtoms
