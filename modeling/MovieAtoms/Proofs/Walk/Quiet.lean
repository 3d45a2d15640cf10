import MovieAtoms.Proofs.Payload.Inward
import MovieAtoms.Proofs.Walk.Yields

/-!
# Events that tell of the way

Of the events of a walk, only two kinds tell how far it went: an atom was passed over, or an atom
was found for a directive. All others are quiet, those of decoding among them. Main statement:
`quiet_carryOut`, by which what is done with an atom that was found reports quiet events only.
-/

namespace MovieAtoms

/-- The event does not tell of an atom on the way. -/
def Event.Quiet : Event → Prop
  | .skippingSibling .. | .executing .. => False
  | _ => True

namespace Logged

def Quiet (log : Logged α) : Prop := ∀ event ∈ log.events, event.Quiet

theorem quiet_ofExcept (result : Except DecodeError α) : (ofExcept result).Quiet := by
  intro event hevent
  cases hevent

theorem quiet_pure (value : α) : (pure value : Logged α).Quiet := quiet_ofExcept (.ok value)

theorem quiet_fail (error : DecodeError) : (fail error : Logged α).Quiet :=
  quiet_ofExcept (.error error)

theorem quiet_report (event : Event) (h : event.Quiet) : (report event).Quiet := by
  intro other hother
  rw [List.mem_singleton.mp hother]
  exact h

/-- What is inside an atom is not on the way. -/
theorem Inward.quiet {log : Logged α} (h : log.Inward) : log.Quiet := by
  intro event hevent
  have hinward := h.events event hevent
  cases event with
  | skippingSibling => cases hinward
  | executing => cases hinward
  | _ => trivial

end Logged

/-! ### Work on a source -/

namespace Walk

def Quiet (walk : Walk α) : Prop := ∀ source, (walk source).1.Quiet

theorem quiet_pure (value : α) : (pure value : Walk α).Quiet := fun _ => Logged.quiet_pure value

theorem quiet_report (event : Event) (h : event.Quiet) : (report event).Quiet :=
  fun _ => Logged.quiet_report event h

theorem quiet_ofLogged {work : Logged α} (h : work.Quiet) : (ofLogged work).Quiet :=
  fun _ => h

theorem quiet_ofSource (work : Source → Except DecodeError α × Source) :
    (ofSource work).Quiet := fun _ => Logged.quiet_ofExcept _

theorem Quiet.bind {first : Walk α} {next : α → Walk β} (hfirst : first.Quiet)
    (hnext : ∀ value, (next value).Quiet) : (first >>= next).Quiet := by
  intro source
  have hstart := hfirst source
  change (andThen first next source).1.Quiet
  rw [andThen]
  rcases hrun : first source with ⟨⟨events, result⟩, rest⟩
  rw [hrun] at hstart
  cases result with
  | error error => exact hstart
  | ok value =>
      intro event hevent
      rcases List.mem_append.mp hevent with hevent | hevent
      · exact hstart event hevent
      · exact hnext value rest event hevent

theorem quiet_carryOut (operation : Operation) (header : Header) :
    (carryOut operation header).Quiet := by
  cases operation with
  | read =>
      refine Quiet.bind ?_ fun record => quiet_pure (some record)
      refine (quiet_ofSource _).bind fun bytes => ?_
      refine (quiet_ofLogged (Atom.inward_ofPayload header bytes).quiet).bind fun record => ?_
      exact (quiet_report (.decodedAtom header) trivial).bind fun _ => quiet_pure record
  | stepInto =>
      rw [carryOut_stepInto]
      split
      · exact quiet_pure none
      · have hreport := quiet_report (.enteringNonContainer header.tag) trivial
        exact hreport.bind fun _ => quiet_pure none
  | skip => exact (quiet_ofSource _).bind fun _ => quiet_pure none

theorem quiet_leadingFileType : leadingFileType.Quiet := by
  refine (quiet_ofSource _).bind fun header => ?_
  split
  · refine Quiet.bind ?_ fun found => ?_
    · exact (quiet_ofSource _).bind fun bytes => quiet_ofLogged (Logged.quiet_ofExcept _)
    · exact (quiet_report (.fileType _ _) trivial).bind fun _ => quiet_pure found
  · exact quiet_ofLogged (Logged.quiet_fail _)

/-- Every contents belong to some source, so a quiet walk yields quiet logs only. -/
theorem Yields.quiet {walk : Walk α} {bytes left : Bytes} {ending : Ending} {log : Logged α}
    (h : walk.Yields bytes ending log left) (hquiet : walk.Quiet) : log.Quiet := by
  obtain ⟨next, hrun, -, -⟩ := h (Source.paced bytes ending fun _ => ⟨0, 0⟩) rfl rfl
  have hlog := hquiet (Source.paced bytes ending fun _ => ⟨0, 0⟩)
  rw [hrun] at hlog
  exact hlog

end Walk

end MovieAtoms
