import MovieAtoms.Proofs.Walk.Forest
import MovieAtoms.Proofs.Walk.Onward

/-!
# Walks on slow, short and failing sources

What a whole walk owes to its source. Main statements: `run_paced`, by which the pieces in which a
source delivers its bytes and the interruptions between them change neither the outcome nor the
number of bytes taken, and `run_cut`, by which a source that loses a byte of those that a
successful walk takes never leads to another success.
-/

namespace MovieAtoms

/-- A source that is never interrupted and always delivers as many bytes as were asked for. -/
def Source.prompt (bytes : Bytes) (ending : Ending) : Source :=
  paced bytes ending fun _ => ⟨0, bytes.length⟩

namespace Walk

/-! ### The schedule of deliveries -/

/-- The outcome of a walk, the events on the way and the number of bytes it takes are those of the
    same walk on a prompt source, whatever pieces the bytes come in. -/
theorem run_paced (directives : List Directive) (bytes : Bytes) (ending : Ending)
    (schedule : Nat → Pace) :
    (run directives (Source.paced bytes ending schedule)).1 =
        (run directives (Source.prompt bytes ending)).1 ∧
      (run directives).taken (Source.paced bytes ending schedule) =
        (run directives).taken (Source.prompt bytes ending) := by
  have hrest : (Source.paced bytes ending schedule).rest = (Source.prompt bytes ending).rest := rfl
  obtain ⟨hlog, hleft⟩ := (onward_run directives).eq_of_contents hrest rfl
  refine ⟨hlog, ?_⟩
  rw [taken, taken, hleft, hrest]

/-! ### Data that is cut off -/

/-- After a success that took `taken` bytes, anything may follow these bytes; without one of them
    the same walk fails, at the end of the data or with the failure of the device. -/
theorem run_cut {directives : List Directive} {source : Source} {extraction : Extraction}
    (h : (run directives source).1.result = .ok extraction) :
    (∀ (tail : Bytes) (other : Source),
      other.rest = source.rest.take ((run directives).taken source) ++ tail →
        (run directives other).1.result = .ok extraction ∧
          (run directives).taken other = (run directives).taken source) ∧
    (∀ (count : Nat) (short : Source), count < (run directives).taken source →
      short.rest = source.rest.take count → short.ending = .endOfInput →
        (∃ error, (run directives short).1.result = .error error ∧
          (error = .prematureEnd ∨ (∃ tag, error = .targetNotFound tag) ∨
            ∃ wanted skipped, error = .shortSkip wanted skipped)) ∧
          (run directives).taken short = count) ∧
    ∀ (count : Nat) (reason : String) (faulty : Source),
      faulty.rest = source.rest.take count → faulty.ending = .fault (.other reason) →
        (count < (run directives).taken source →
          (run directives faulty).1.result = .error (.deviceFailure reason) ∧
            (run directives).taken faulty = count) ∧
        ((run directives).taken source ≤ count →
          (run directives faulty).1.result = .ok extraction ∧
            (run directives).taken faulty = (run directives).taken source) := by
  have honward := onward_run directives
  refine ⟨?_, ?_, ?_⟩
  · intro tail other hrest
    exact honward.ok_of_append h hrest
  · intro count short hcount hrest hending
    obtain ⟨error, hresult, hexplains, htaken⟩ := honward.error_of_cut h hcount hrest
    rw [hending] at hexplains
    exact ⟨⟨error, hresult, hexplains⟩, htaken⟩
  · intro count reason faulty hrest hending
    constructor
    · intro hcount
      obtain ⟨error, hresult, hexplains, htaken⟩ := honward.error_of_cut h hcount hrest
      rw [hending] at hexplains
      cases hexplains
      exact ⟨hresult, htaken⟩
    · intro hcount
      exact honward.ok_of_append h (hrest.trans (take_eq_take_append hcount source.rest))

/-- A source that holds a small movie. -/
def smallSource : Source := Source.ofBytes (plainFileType.toBytes ++ Forest.bytes smallMovie)

theorem run_smallSource :
    (run dataBehindMovie smallSource).1.result =
        .ok ⟨plainFileType, [.raw ⟨⟨10, Tag.spelled 'm' 'd' 'a' 't'⟩, [4, 5]⟩]⟩ ∧
      (run dataBehindMovie).taken smallSource = 69 := by
  have hwell : plainFileType.WellFormed := ⟨rfl, rfl⟩
  obtain ⟨events, hyields⟩ := yields_run_forest hwell (by decide) walk_smallMovie
  have hrest : smallSource.rest = plainFileType.toBytes ++ Forest.bytes smallMovie := rfl
  obtain ⟨hlog, hleft⟩ := hyields.eq hrest rfl
  refine ⟨congrArg Logged.result hlog, ?_⟩
  rw [taken, hleft]
  rfl

/-- The small movie is cut off inside its track, and its device fails inside its data. -/
theorem run_cut_smallSource :
    (run dataBehindMovie smallSource).1.result =
        .ok ⟨plainFileType, [.raw ⟨⟨10, Tag.spelled 'm' 'd' 'a' 't'⟩, [4, 5]⟩]⟩ ∧
      (run dataBehindMovie).taken (Source.ofBytes (smallSource.rest.take 37)) = 37 ∧
      (run dataBehindMovie
          (Source.prompt (smallSource.rest.take 68) (.fault (.other "lost")))).1.result =
        .error (.deviceFailure "lost") := by
  obtain ⟨hok, htaken⟩ := run_smallSource
  obtain ⟨-, hshort, hfaulty⟩ := run_cut hok
  rw [htaken] at hshort hfaulty
  refine ⟨hok, ?_, ?_⟩
  · exact (hshort 37 (Source.ofBytes (smallSource.rest.take 37)) (by decide) rfl rfl).2
  · exact ((hfaulty 68 "lost" (Source.prompt (smallSource.rest.take 68) (.fault (.other "lost")))
      rfl rfl).1 (by decide)).1

end Walk

end MovieAtoms
