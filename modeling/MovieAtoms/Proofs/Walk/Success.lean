import MovieAtoms.Proofs.Walk.Onward

/-!
# Walks that succeed

`Succeeds` gives the rules of directives that all succeed, one for each operation: the search finds
an atom, and what is to be done with it leaves the data on which the others start. The rules tell
neither events nor indices, which do not matter to success. Main statements: `succeeds_of_yields`
and `yields_of_succeeds`, by which the directives succeed just as the rules derive, and
`exists_of_run_ok`, which takes a whole walk apart.
-/

namespace MovieAtoms.Walk

/-- The rules of success: the data on which directives start, the records that they bring home, and
    the data that they leave. -/
inductive Succeeds (ending : Ending) : List Directive → Bytes → List Atom → Bytes → Prop where
  | nil {bytes : Bytes} : Succeeds ending [] bytes [] bytes
  | stepInto {tag : Tag} {others : List Directive} {bytes middle left : Bytes}
      {events : List Event} {header : Header} {atoms : List Atom}
      (hsearch : Search tag ending bytes ⟨events, .ok header⟩ middle)
      (hothers : Succeeds ending others middle atoms left) :
      Succeeds ending (⟨.stepInto, tag⟩ :: others) bytes atoms left
  | skip {tag : Tag} {others : List Directive} {bytes payload behind left : Bytes}
      {events : List Event} {header : Header} {atoms : List Atom}
      (hsearch : Search tag ending bytes ⟨events, .ok header⟩ (payload ++ behind))
      (hpayload : payload.length = header.payloadLength)
      (hothers : Succeeds ending others behind atoms left) :
      Succeeds ending (⟨.skip, tag⟩ :: others) bytes atoms left
  | read {tag : Tag} {others : List Directive} {bytes payload behind left : Bytes}
      {events : List Event} {header : Header} {atom : Atom} {atoms : List Atom}
      (hsearch : Search tag ending bytes ⟨events, .ok header⟩ (payload ++ behind))
      (hpayload : payload.length = header.payloadLength)
      (hdecode : (Atom.ofPayload header payload).result = .ok atom)
      (hothers : Succeeds ending others behind atoms left) :
      Succeeds ending (⟨.read, tag⟩ :: others) bytes (atom :: atoms) left

variable {bytes left middle : Bytes} {ending : Ending} {events : List Event} {index : Nat}
  {directives : List Directive} {atoms : List Atom}

theorem succeeds_of_yields
    (h : (carryOutAll index directives).Yields bytes ending ⟨events, .ok atoms⟩ left) :
    Succeeds ending directives bytes atoms left := by
  induction directives generalizing index bytes events atoms with
  | nil =>
      obtain ⟨hlog, rfl⟩ := h.unique yields_carryOutAll_nil
      cases hlog
      exact .nil
  | cons directive others ih =>
      obtain ⟨operation, tag⟩ := directive
      rcases carryOutAll_cases h with ⟨_, _, -, hlog⟩ |
        ⟨_, header, middle, _, hsearch, ⟨_, -, hlog⟩ | ⟨found, behind, rest, hact, hrest, hlog⟩⟩
      · cases hlog
      · cases hlog
      obtain ⟨later, error | rest⟩ := rest
      · cases hlog
      cases hlog
      cases operation with
      | stepInto =>
          obtain ⟨rfl, rfl⟩ := stepInto_ok hact
          exact .stepInto hsearch (ih hrest)
      | skip =>
          obtain ⟨rfl, payload, rfl, hpayload⟩ := skip_ok hact
          exact .skip hsearch hpayload (ih hrest)
      | read =>
          obtain ⟨record, payload, rfl, rfl, hpayload, hdecode⟩ := read_ok hact
          exact .read hsearch hpayload hdecode (ih hrest)

/-- Behind directives that succeed, others come to what they come to by themselves. -/
theorem Succeeds.yields_append {first second : List Directive}
    {result : Except DecodeError (List Atom)} (h : Succeeds ending first bytes atoms middle)
    (hsecond : ∀ index, ∃ events,
      (carryOutAll index second).Yields middle ending ⟨events, result⟩ left) (index : Nat) :
    ∃ events, (carryOutAll index (first ++ second)).Yields bytes ending
      ⟨events, result.map (atoms ++ ·)⟩ left := by
  -- the index only numbers the events, so what follows is asked for at every index
  induction h generalizing index with
  | nil =>
      obtain ⟨events, hyields⟩ := hsecond index
      cases result <;> exact ⟨events, hyields⟩
  | stepInto hsearch _ ih =>
      obtain ⟨later, hothers⟩ := ih hsecond (index + 1)
      have hall := yields_carryOutAll_cons (yields_of_search hsearch) (yields_stepInto _ _ _)
        hothers
      cases result <;> exact ⟨_, hall⟩
  | skip hsearch hpayload _ ih =>
      obtain ⟨later, hothers⟩ := ih hsecond (index + 1)
      have hall := yields_carryOutAll_cons (yields_of_search hsearch) (yields_skip hpayload)
        hothers
      cases result <;> exact ⟨_, hall⟩
  | @read _ _ _ payload _ _ _ header _ _ hsearch hpayload hdecode _ ih =>
      obtain ⟨later, hothers⟩ := ih hsecond (index + 1)
      rcases hlog : Atom.ofPayload header payload with ⟨told, decoded⟩
      rw [hlog] at hdecode
      cases hdecode
      have hall := yields_carryOutAll_cons (yields_of_search hsearch) (yields_read hpayload hlog)
        hothers
      cases result <;> exact ⟨_, hall⟩

theorem yields_of_succeeds (h : Succeeds ending directives bytes atoms left) (index : Nat) :
    ∃ events, (carryOutAll index directives).Yields bytes ending ⟨events, .ok atoms⟩ left := by
  have hnone : ∀ index, ∃ events,
      (carryOutAll index []).Yields left ending ⟨events, .ok []⟩ left :=
    fun _ => ⟨[], yields_carryOutAll_nil⟩
  obtain ⟨events, hyields⟩ := h.yields_append hnone index
  rw [List.append_nil, Except.map, List.append_nil] at hyields
  exact ⟨events, hyields⟩

theorem Succeeds.append {first second : List Directive} {more : List Atom}
    (hfirst : Succeeds ending first bytes atoms middle)
    (hsecond : Succeeds ending second middle more left) :
    Succeeds ending (first ++ second) bytes (atoms ++ more) left := by
  induction hfirst with
  | nil => exact hsecond
  | stepInto hsearch _ ih => exact .stepInto hsearch (ih hsecond)
  | skip hsearch hpayload _ ih => exact .skip hsearch hpayload (ih hsecond)
  | read hsearch hpayload hdecode _ ih => exact .read hsearch hpayload hdecode (ih hsecond)

/-! ### Whole walks -/

theorem leadingFileType_ok {fileType : FileType}
    (h : leadingFileType.Yields bytes ending ⟨events, .ok fileType⟩ left) :
    fileType.WellFormed ∧ bytes = fileType.toBytes ++ left := by
  obtain ⟨_, header, middle, _, hheader, hbehind⟩ :=
    onward_readHeader.exists_of_bind_ok onward_ifFileType h
  obtain ⟨hcovers, rfl⟩ := readHeader_ok hheader
  split at hbehind
  · rename_i htag
    obtain ⟨_, found, last, _, hfile, hreport⟩ := (onward_fileType header).exists_of_bind_ok
      (fun found => (onward_report _).bind fun _ => onward_pure found) hbehind
    obtain ⟨hlog, rfl⟩ := hreport.unique ((yields_pure found).report_bind rfl)
    cases hlog
    obtain ⟨_, payload, behind, _, hcaptured, hdecode⟩ :=
      (onward_payload header).exists_of_bind_ok (fun _ => onward_ofLogged _) hfile
    obtain ⟨rfl, hpayload⟩ := payload_ok hcaptured
    obtain ⟨hlog, rfl⟩ := hdecode.unique (yields_ofLogged _)
    obtain ⟨rfl, rfl⟩ := FileType.decode_eq_ok.mp (congrArg Logged.result hlog).symm
    refine ⟨⟨htag, ?_⟩, (List.append_assoc ..).symm⟩
    rw [hpayload, Header.payloadLength]
    exact (Nat.add_sub_cancel' hcovers).symm
  · cases (hbehind.unique (yields_ofLogged _)).1

/-- When a walk succeeds, its leading file type did, and then the directives. -/
theorem exists_yields_of_run_ok {source : Source} {extraction : Extraction}
    (h : (run directives source).1.result = .ok extraction) :
    ∃ events middle later,
      leadingFileType.Yields source.rest source.ending ⟨events, .ok extraction.fileType⟩ middle ∧
      (carryOutAll 0 directives).Yields middle source.ending ⟨later, .ok extraction.atoms⟩
        (run directives source).2.rest ∧
      (run directives source).1.events = events ++ later := by
  obtain ⟨⟨events, result⟩, -, left, -, hrun⟩ :=
    (onward_run directives).exists_yields source.rest source.ending
  obtain ⟨hlog, hleft⟩ := hrun.eq rfl rfl
  rw [hlog] at h
  cases h
  rw [hleft, hlog]
  obtain ⟨before, fileType, middle, _, hleading, hbehind⟩ :=
    onward_leadingFileType.exists_of_bind_ok
      (fun fileType => (onward_carryOutAll 0 directives).bind fun atoms => onward_pure _) hrun
  obtain ⟨later, atoms, last, _, hatoms, hpure⟩ :=
    (onward_carryOutAll 0 directives).exists_of_bind_ok (fun _ => onward_pure _) hbehind
  obtain ⟨hvalue, rfl⟩ := hpure.unique (yields_pure _)
  cases hvalue
  obtain ⟨hevents, -⟩ := hrun.unique (yields_run hleading hatoms)
  cases hevents
  exact ⟨before, middle, later, hleading, hatoms, rfl⟩

theorem exists_of_run_ok {source : Source} {extraction : Extraction}
    (h : (run directives source).1.result = .ok extraction) :
    ∃ events middle,
      leadingFileType.Yields source.rest source.ending ⟨events, .ok extraction.fileType⟩ middle ∧
      Succeeds source.ending directives middle extraction.atoms
        (run directives source).2.rest := by
  obtain ⟨events, middle, later, hleading, hatoms, -⟩ := exists_yields_of_run_ok h
  exact ⟨events, middle, hleading, succeeds_of_yields hatoms⟩

theorem run_of_succeeds {source : Source} {fileType : FileType}
    (hleading : leadingFileType.Yields source.rest source.ending ⟨events, .ok fileType⟩ middle)
    (h : Succeeds source.ending directives middle atoms left) :
    (run directives source).1.result = .ok ⟨fileType, atoms⟩ ∧
      (run directives source).2.rest = left := by
  obtain ⟨later, hatoms⟩ := yields_of_succeeds h 0
  obtain ⟨hlog, hleft⟩ := (yields_run hleading hatoms).eq rfl rfl
  exact ⟨congrArg Logged.result hlog, hleft⟩

end MovieAtoms.Walk
