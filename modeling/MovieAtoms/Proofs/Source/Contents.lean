import MovieAtoms.Source.Reading

/-!
# Reading depends on the contents only

The contents of a source are the bytes that it still holds and the way it ends. Every operation on
a source is a function of these: `Brings` says what an operation comes to on all sources with given
contents, and the lemmas below give it for captured bytes, for skipped bytes and for headers. The
schedule of the deliveries appears in none of them.
-/

namespace MovieAtoms

/-- What it means that a source stops while bytes are passed over. -/
def Ending.skipError (wanted skipped : Nat) : Ending → DecodeError
  | .endOfInput => .shortSkip wanted skipped
  | .fault cause => cause.error

/-- What a search for a header finds where no byte is left. -/
def Ending.atBoundary : Ending → Except DecodeError (Option Header)
  | .endOfInput => .ok none
  | .fault cause => .error cause.error

/-- The errors by which work shows that its source was at an end. -/
def Ending.Explains : Ending → DecodeError → Prop
  | .endOfInput, error =>
      error = .prematureEnd ∨ (∃ tag, error = .targetNotFound tag) ∨
        ∃ wanted skipped, error = .shortSkip wanted skipped
  | .fault cause, error => error = cause.error

theorem Ending.explains_error (ending : Ending) : ending.Explains ending.error := by
  cases ending with
  | endOfInput => exact Or.inl rfl
  | fault cause => rfl

theorem Ending.explains_skipError (ending : Ending) (wanted skipped : Nat) :
    ending.Explains (ending.skipError wanted skipped) := by
  cases ending with
  | endOfInput => exact Or.inr (Or.inr ⟨wanted, skipped, rfl⟩)
  | fault cause => rfl

namespace Source

/-- From every source that holds `bytes` and then ends as `ending` says, `work` comes to `result`
    and leaves the bytes `left`. -/
def Brings (work : Source → β × Source) (bytes : Bytes) (ending : Ending) (result : β)
    (left : Bytes) : Prop :=
  ∀ source : Source, source.rest = bytes → source.ending = ending →
    ∃ next, work source = (result, next) ∧ next.rest = left ∧ next.ending = ending

/-- Every contents belong to some source, so an operation comes to one result only. -/
theorem Brings.unique {work : Source → β × Source} {bytes left left' : Bytes} {ending : Ending}
    {result result' : β} (h : Brings work bytes ending result left)
    (h' : Brings work bytes ending result' left') : result = result' ∧ left = left' := by
  obtain ⟨next, hwork, hleft, -⟩ := h (paced bytes ending fun _ => ⟨0, 0⟩) rfl rfl
  obtain ⟨next', hwork', hleft', -⟩ := h' (paced bytes ending fun _ => ⟨0, 0⟩) rfl rfl
  have hboth : (result, next) = (result', next') := hwork.symm.trans hwork'
  cases hboth
  exact ⟨rfl, hleft.symm.trans hleft'⟩

theorem Brings.eq {work : Source → β × Source} {bytes left : Bytes} {ending : Ending} {result : β}
    (h : Brings work bytes ending result left) {source : Source} (hrest : source.rest = bytes)
    (hending : source.ending = ending) :
    (work source).1 = result ∧ (work source).2.rest = left := by
  obtain ⟨next, hwork, hleft, -⟩ := h source hrest hending
  rw [hwork]
  exact ⟨rfl, hleft⟩

/-! ### One delivery -/

theorem ending_deliver (extra : Nat) (source : Source) :
    (source.deliver extra).2.ending = source.ending := by
  rw [deliver_eq]
  rfl

/-- A delivery brings a piece of what is left as long as something is left. -/
theorem deliver_cases (extra : Nat) (source : Source) :
    (∃ next, source.deliver extra = (.ending source.ending, next) ∧ source.rest = [] ∧
      next.rest = [] ∧ next.ending = source.ending) ∨
    ∃ first more next, source.deliver extra = (.piece first more, next) ∧
      source.rest = first :: more ++ next.rest ∧ more.length ≤ extra ∧
      next.ending = source.ending := by
  have hending := ending_deliver extra source
  rcases hdeliver : source.deliver extra with ⟨delivery, next⟩
  rw [hdeliver] at hending
  cases delivery with
  | ending ending =>
      obtain ⟨hrest, hnext, rfl⟩ := rest_deliver_ending hdeliver
      exact Or.inl ⟨next, rfl, hrest, hnext, hending⟩
  | piece first more =>
      obtain ⟨hrest, hlength⟩ := rest_deliver_piece hdeliver
      exact Or.inr ⟨first, more, next, rfl, hrest, hlength, hending⟩

/-! ### Captured bytes -/

theorem take_piece {first : UInt8} {more rest : Bytes} {count : Nat} (h : more.length ≤ count) :
    (first :: more ++ rest).take (count + 1) =
      first :: more ++ rest.take (count - more.length) := by
  have hlength : (first :: more).length ≤ count + 1 := Nat.succ_le_succ h
  rw [List.take_append, List.take_of_length_le hlength, List.length_cons,
    Nat.add_sub_add_right]

theorem drop_piece {first : UInt8} {more rest : Bytes} {count : Nat} (h : more.length ≤ count) :
    (first :: more ++ rest).drop (count + 1) = rest.drop (count - more.length) := by
  have hlength : (first :: more).length ≤ count + 1 := Nat.succ_le_succ h
  rw [List.drop_append, List.drop_eq_nil_of_le hlength, List.nil_append, List.length_cons,
    Nat.add_sub_add_right]

theorem le_length_piece {first : UInt8} {more rest : Bytes} {count : Nat}
    (h : more.length ≤ count) :
    count + 1 ≤ (first :: more ++ rest).length ↔ count - more.length ≤ rest.length := by
  rw [List.length_append, List.length_cons]
  omega

theorem gather_eq (count : Nat) (source : Source) :
    ∃ next, source.gather count = (source.rest.take count,
        if count ≤ source.rest.length then none else some source.ending, next) ∧
      next.rest = source.rest.drop count ∧ next.ending = source.ending := by
  induction count using Nat.strongRecOn generalizing source with
  | ind count ih =>
      cases count with
      | zero => exact ⟨source, by simp [gather], rfl, rfl⟩
      | succ count =>
          rcases deliver_cases count source with
            ⟨next, hdeliver, hrest, hnext, hending⟩ |
            ⟨first, more, next, hdeliver, hrest, hmore, hending⟩
          · exact ⟨next, by simp [gather, hdeliver, hrest], by simp [hrest, hnext], hending⟩
          · obtain ⟨last, hgather, hlast, hstop⟩ := ih (count - more.length) (by omega) next
            refine ⟨last, ?_, ?_, hstop.trans hending⟩
            · rw [gather, hdeliver, hrest, take_piece hmore]
              simp only [hgather, hending, le_length_piece hmore]
            · rw [hlast, hrest, drop_piece hmore]

theorem readBytes_brings {count : Nat} {bytes : Bytes} (h : count ≤ bytes.length)
    (ending : Ending) :
    Brings (readBytes count) bytes ending (.ok (bytes.take count)) (bytes.drop count) := by
  intro source hrest hending
  obtain ⟨next, hgather, hnext, hstop⟩ := gather_eq count source
  rw [hrest, if_pos h] at hgather
  exact ⟨next, by rw [readBytes, hgather], by rw [hnext, hrest], hstop.trans hending⟩

theorem readBytes_brings_append {count : Nat} {front tail : Bytes} (h : front.length = count)
    (ending : Ending) : Brings (readBytes count) (front ++ tail) ending (.ok front) tail := by
  have hle : front.length ≤ (front ++ tail).length := by
    rw [List.length_append]
    exact Nat.le_add_right _ _
  have hread := readBytes_brings hle ending
  rw [List.take_left, List.drop_left] at hread
  exact h ▸ hread

theorem readBytes_brings_error {count : Nat} {bytes : Bytes} (h : bytes.length < count)
    (ending : Ending) : Brings (readBytes count) bytes ending (.error ending.error) [] := by
  intro source hrest hending
  obtain ⟨next, hgather, hnext, hstop⟩ := gather_eq count source
  rw [hrest, hending, if_neg (Nat.not_le.mpr h)] at hgather
  refine ⟨next, by rw [readBytes, hgather], ?_, hstop.trans hending⟩
  rw [hnext, hrest, List.drop_eq_nil_of_le (Nat.le_of_lt h)]

/-! ### Skipped bytes -/

theorem discard_eq (count : Nat) (source : Source) :
    ∃ next, source.discard count = (min count source.rest.length,
        if count ≤ source.rest.length then none else some source.ending, next) ∧
      next.rest = source.rest.drop count ∧ next.ending = source.ending := by
  induction count using Nat.strongRecOn generalizing source with
  | ind count ih =>
      cases count with
      | zero => exact ⟨source, by simp [discard], rfl, rfl⟩
      | succ count =>
          rcases deliver_cases count source with
            ⟨next, hdeliver, hrest, hnext, hending⟩ |
            ⟨first, more, next, hdeliver, hrest, hmore, hending⟩
          · exact ⟨next, by simp [discard, hdeliver, hrest], by simp [hrest, hnext], hending⟩
          · obtain ⟨last, hdiscard, hlast, hstop⟩ := ih (count - more.length) (by omega) next
            have hpassed : more.length + 1 + min (count - more.length) next.rest.length =
                min (count + 1) (first :: more ++ next.rest).length := by
              rw [List.length_append, List.length_cons]
              omega
            refine ⟨last, ?_, ?_, hstop.trans hending⟩
            · rw [discard, hdeliver, hrest]
              simp only [hdiscard, hending, hpassed, le_length_piece hmore]
            · rw [hlast, hrest, drop_piece hmore]

theorem skip_brings {count : Nat} {bytes : Bytes} (h : count ≤ bytes.length) (ending : Ending) :
    Brings (skip count) bytes ending (.ok ()) (bytes.drop count) := by
  intro source hrest hending
  obtain ⟨next, hdiscard, hnext, hstop⟩ := discard_eq count source
  rw [hrest, if_pos h] at hdiscard
  exact ⟨next, by rw [skip, hdiscard], by rw [hnext, hrest], hstop.trans hending⟩

theorem skip_brings_append {count : Nat} {front tail : Bytes} (h : front.length = count)
    (ending : Ending) : Brings (skip count) (front ++ tail) ending (.ok ()) tail := by
  have hle : front.length ≤ (front ++ tail).length := by
    rw [List.length_append]
    exact Nat.le_add_right _ _
  have hskip := skip_brings hle ending
  rw [List.drop_left] at hskip
  exact h ▸ hskip

theorem skip_brings_error {count : Nat} {bytes : Bytes} (h : bytes.length < count)
    (ending : Ending) :
    Brings (skip count) bytes ending (.error (ending.skipError count bytes.length)) [] := by
  intro source hrest hending
  obtain ⟨next, hdiscard, hnext, hstop⟩ := discard_eq count source
  rw [hrest, hending, if_neg (Nat.not_le.mpr h), Nat.min_eq_right (Nat.le_of_lt h)] at hdiscard
  refine ⟨next, ?_, ?_, hstop.trans hending⟩
  · rw [skip, hdiscard]
    cases ending <;> rfl
  · rw [hnext, hrest, List.drop_eq_nil_of_le (Nat.le_of_lt h)]

/-! ### Headers -/

/-- The loop fills up a header when enough bytes are left, however they are delivered. -/
theorem fillHeader_eq_ofBytes (missing : Nat) (filled : Bytes) (source : Source)
    (hfilled : filled.length + missing = Header.width) (h : missing ≤ source.rest.length) :
    ∃ next, source.fillHeader filled =
        ((Header.ofBytes (filled ++ source.rest.take missing)).map some, next) ∧
      next.rest = source.rest.drop missing ∧ next.ending = source.ending := by
  induction missing using Nat.strongRecOn generalizing filled source with
  | ind missing ih =>
      cases missing with
      | zero =>
          have hfull : ¬filled.length < Header.width := by omega
          exact ⟨source, by rw [fillHeader, dif_neg hfull]; simp, rfl, rfl⟩
      | succ missing =>
          have hroom : filled.length < Header.width := by omega
          have hextra : Header.width - 1 - filled.length = missing := by omega
          rw [fillHeader_eq filled source hroom, hextra]
          rcases deliver_cases missing source with
            ⟨next, -, hrest, -, -⟩ | ⟨first, more, next, hdeliver, hrest, hmore, hending⟩
          · rw [hrest] at h
            exact absurd h (Nat.not_succ_le_zero missing)
          · have hleft : missing - more.length ≤ next.rest.length :=
              (le_length_piece hmore).mp (hrest ▸ h)
            have hlength : (filled ++ first :: more).length + (missing - more.length) =
                Header.width := by
              rw [List.length_append, List.length_cons]
              omega
            obtain ⟨last, hfill, hlast, hstop⟩ :=
              ih (missing - more.length) (by omega) (filled ++ first :: more) next hlength hleft
            refine ⟨last, ?_, ?_, hstop.trans hending⟩
            · rw [hdeliver, hrest, take_piece hmore, ← List.append_assoc]
              exact hfill
            · rw [hlast, hrest, drop_piece hmore]

/-- The loop meets the end of the source inside a header. -/
theorem fillHeader_eq_error (missing : Nat) (filled : Bytes) (source : Source)
    (hfilled : filled.length + missing = Header.width) (h : source.rest.length < missing)
    (hbegun : filled ≠ [] ∨ source.rest ≠ []) :
    ∃ next, source.fillHeader filled = (.error source.ending.error, next) ∧
      next.rest = [] ∧ next.ending = source.ending := by
  induction missing using Nat.strongRecOn generalizing filled source with
  | ind missing ih =>
      cases missing with
      | zero => exact absurd h (Nat.not_lt_zero _)
      | succ missing =>
          have hroom : filled.length < Header.width := by omega
          have hextra : Header.width - 1 - filled.length = missing := by omega
          rw [fillHeader_eq filled source hroom, hextra]
          rcases deliver_cases missing source with
            ⟨next, hdeliver, hrest, hnext, hending⟩ |
            ⟨first, more, next, hdeliver, hrest, hmore, hending⟩
          · have hsome : filled ≠ [] := hbegun.resolve_right (not_not_intro hrest)
            refine ⟨next, ?_, hnext, hending⟩
            rw [hdeliver]
            cases source.ending with
            | endOfInput => simp [hsome, Ending.error]
            | fault cause => rfl
          · have hleft : next.rest.length < missing - more.length := by
              rw [hrest, List.length_append, List.length_cons] at h
              omega
            have hlength : (filled ++ first :: more).length + (missing - more.length) =
                Header.width := by
              rw [List.length_append, List.length_cons]
              omega
            obtain ⟨last, hfill, hlast, hstop⟩ :=
              ih (missing - more.length) (by omega) (filled ++ first :: more) next hlength hleft
                (Or.inl (by simp))
            refine ⟨last, ?_, hlast, hstop.trans hending⟩
            rw [hdeliver, ← hending]
            exact hfill

theorem tryReadHeader_brings {bytes : Bytes} (h : Header.width ≤ bytes.length) (ending : Ending) :
    Brings tryReadHeader bytes ending ((Header.ofBytes (bytes.take Header.width)).map some)
      (bytes.drop Header.width) := by
  intro source hrest hending
  obtain ⟨next, hfill, hnext, hstop⟩ :=
    fillHeader_eq_ofBytes Header.width [] source (Nat.zero_add _) (hrest ▸ h)
  refine ⟨next, ?_, by rw [hnext, hrest], hstop.trans hending⟩
  rw [tryReadHeader, hfill, List.nil_append, hrest]

theorem tryReadHeader_brings_error {bytes : Bytes} (hbytes : bytes ≠ [])
    (h : bytes.length < Header.width) (ending : Ending) :
    Brings tryReadHeader bytes ending (.error ending.error) [] := by
  intro source hrest hending
  obtain ⟨next, hfill, hnext, hstop⟩ :=
    fillHeader_eq_error Header.width [] source (Nat.zero_add _) (hrest ▸ h)
      (Or.inr (hrest ▸ hbytes))
  refine ⟨next, ?_, hnext, hstop.trans hending⟩
  rw [tryReadHeader, hfill, hending]

theorem tryReadHeader_brings_boundary (ending : Ending) :
    Brings tryReadHeader [] ending ending.atBoundary [] := by
  intro source hrest hending
  rcases deliver_cases (Header.width - 1) source with
    ⟨next, hdeliver, -, hnext, hstop⟩ | ⟨first, more, next, -, hpiece, -, -⟩
  · refine ⟨next, ?_, hnext, hstop.trans hending⟩
    rw [tryReadHeader, fillHeader_eq [] source (by decide), List.length_nil, Nat.sub_zero,
      hdeliver, hending]
    cases ending <;> rfl
  · rw [hrest] at hpiece
    cases hpiece

theorem readHeader_brings {bytes : Bytes} (h : Header.width ≤ bytes.length) (ending : Ending) :
    Brings readHeader bytes ending (Header.ofBytes (bytes.take Header.width))
      (bytes.drop Header.width) := by
  intro source hrest hending
  rw [Header.width] at h ⊢
  have hfirst : 4 ≤ bytes.length := by omega
  have hsecond : 4 ≤ (bytes.drop 4).length := by rw [List.length_drop]; omega
  obtain ⟨middle, hsize, hmiddle, hstop⟩ := readBytes_brings hfirst ending source hrest hending
  obtain ⟨last, htag, hlast, hend⟩ := readBytes_brings hsecond ending middle hmiddle hstop
  refine ⟨last, ?_, by rw [hlast, List.drop_drop], hend⟩
  rw [readHeader, hsize]
  simp only [htag]
  rw [← List.take_add]

/-- A header in front of the data is read as such, if its size covers it. -/
theorem readHeader_brings_checked (header : Header) (tail : Bytes) (ending : Ending) :
    Brings readHeader (header.toBytes ++ tail) ending header.checked tail := by
  have hlength := header.length_toBytes
  have hle : Header.width ≤ (header.toBytes ++ tail).length := by
    rw [List.length_append, hlength]
    exact Nat.le_add_right _ _
  have hread := readHeader_brings hle ending
  rw [← hlength, List.take_left, List.drop_left, Header.ofBytes_toBytes] at hread
  exact hread

theorem tryReadHeader_brings_checked (header : Header) (tail : Bytes) (ending : Ending) :
    Brings tryReadHeader (header.toBytes ++ tail) ending (header.checked.map some) tail := by
  have hlength := header.length_toBytes
  have hle : Header.width ≤ (header.toBytes ++ tail).length := by
    rw [List.length_append, hlength]
    exact Nat.le_add_right _ _
  have hread := tryReadHeader_brings hle ending
  rw [← hlength, List.take_left, List.drop_left, Header.ofBytes_toBytes] at hread
  exact hread

theorem readHeader_brings_error {bytes : Bytes} (h : bytes.length < Header.width)
    (ending : Ending) : Brings readHeader bytes ending (.error ending.error) [] := by
  intro source hrest hending
  by_cases hfirst : 4 ≤ bytes.length
  · have hsecond : (bytes.drop 4).length < 4 := by
      rw [Header.width] at h
      rw [List.length_drop]
      omega
    obtain ⟨middle, hsize, hmiddle, hstop⟩ := readBytes_brings hfirst ending source hrest hending
    obtain ⟨last, htag, hlast, hend⟩ := readBytes_brings_error hsecond ending middle hmiddle hstop
    refine ⟨last, ?_, hlast, hend⟩
    rw [readHeader, hsize]
    simp only [htag]
  · obtain ⟨middle, hsize, hmiddle, hstop⟩ :=
      readBytes_brings_error (Nat.lt_of_not_le hfirst) ending source hrest hending
    exact ⟨middle, by rw [readHeader, hsize], hmiddle, hstop⟩

end Source

end MovieAtoms
