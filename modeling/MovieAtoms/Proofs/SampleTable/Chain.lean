import MovieAtoms.Atom.Extension

/-!
# Which chains of extensions are accepted

An extension is well formed when its kind is the one that its tag stands for and its size counts
exactly its header and its body. Main statement: `decodeChain_result_eq_ok`, by which decoding comes
to a list of extensions just when they are well formed and the chain is their written forms, one
after the other, closed by fewer zero bytes than a header has.
-/

namespace MovieAtoms.Extension

/-- The kind of an extension is the one that its tag stands for. -/
def KindFits : Extension → Prop
  | .colorInfo color => color.header.tag = Tag.colorInfo
  | .avcConfig config => config.header.tag = Tag.avcConfig
  | .raw atom => atom.header.tag ≠ Tag.colorInfo ∧ atom.header.tag ≠ Tag.avcConfig

/-- An extension that states its own kind and size. -/
structure WellFormed (extension : Extension) : Prop where
  kind : extension.KindFits
  size : extension.header.size.toNat = Header.width + extension.body.length

variable {extension : Extension} {extensions : List Extension} {chain : Bytes}

/-! ### Single extensions -/

theorem ofChild_eq_ok {child : Child} :
    ofChild child = .ok extension ↔
      extension.header = child.header ∧ child.body = extension.body ∧ extension.KindFits := by
  obtain ⟨header, bytes, rest⟩ := child
  constructor
  · intro h
    unfold ofChild at h
    split at h
    · rename_i hcolor
      obtain ⟨color, hdecode, rfl⟩ := DecodeError.map_eq_ok.mp h
      obtain ⟨rfl, hbytes⟩ := ColorInfo.decode_eq_ok.mp hdecode
      exact ⟨rfl, hbytes, hcolor⟩
    · rename_i hcolor
      split at h
      · rename_i havc
        cases h
        exact ⟨rfl, rfl, havc⟩
      · rename_i havc
        cases h
        exact ⟨rfl, rfl, hcolor, havc⟩
  · rintro ⟨hheader, hbytes, hkind⟩
    simp only at hheader hbytes
    subst hheader hbytes
    cases extension with
    | colorInfo color =>
        have hdecode : ColorInfo.decode color.header color.body = .ok color :=
          ColorInfo.decode_eq_ok.mpr ⟨rfl, rfl⟩
        exact (if_pos hkind).trans (DecodeError.map_eq_ok.mpr ⟨color, hdecode, rfl⟩)
    | avcConfig config =>
        have hcolor : config.header.tag ≠ Tag.colorInfo := by
          rw [show config.header.tag = Tag.avcConfig from hkind]
          decide
        exact (if_neg hcolor).trans (if_pos hkind)
    | raw atom => exact (if_neg hkind.1).trans (if_neg hkind.2)

theorem WellFormed.length_toBytes (h : extension.WellFormed) :
    extension.toBytes.length = extension.header.size.toNat := by
  rw [toBytes, List.length_append, Header.length_toBytes, h.size]

/-- The first atom of a chain is the written form of an extension. -/
theorem first_eq_ok {child : Child} (hchild : ofChild child = .ok extension) :
    first chain = .ok child ↔ extension.WellFormed ∧ chain = extension.toBytes ++ child.rest := by
  obtain ⟨hheader, hbody, hkind⟩ := ofChild_eq_ok.mp hchild
  rw [first, Payload.firstChild_eq_ok, ← hheader, hbody, toBytes, List.append_assoc,
    Header.payloadLength]
  constructor
  · rintro ⟨hchain, hcovers, hlength⟩
    exact ⟨⟨hkind, by omega⟩, hchain⟩
  · rintro ⟨⟨-, hsize⟩, hchain⟩
    exact ⟨hchain, by omega, by omega⟩

/-! ### Whole chains -/

/-- The written forms of extensions, and zero bytes behind them. -/
def chainBytes (extensions : List Extension) (padding : Nat) : Bytes :=
  extensions.flatMap toBytes ++ List.replicate padding 0

theorem chainBytes_cons (padding : Nat) :
    chainBytes (extension :: extensions) padding =
      extension.toBytes ++ chainBytes extensions padding := by
  rw [chainBytes, List.flatMap_cons, List.append_assoc, chainBytes]

theorem exists_eq_chainBytes (h : (decodeChain chain).result = .ok extensions) :
    (∀ extension ∈ extensions, extension.WellFormed) ∧
      ∃ padding < Header.width, chain = chainBytes extensions padding := by
  induction chain using decodeChain.induct generalizing extensions with
  | case1 chain hempty =>
      rw [decodeChain, if_pos hempty] at h
      cases h
      exact ⟨by simp, 0, by decide, List.isEmpty_iff.mp hempty⟩
  | case2 chain hsome hpadding =>
      rw [decodeChain, if_neg hsome, if_pos hpadding] at h
      cases h
      exact ⟨by simp, Payload.isPadding_eq_true.mp hpadding⟩
  | case3 chain hsome hatom error hfirst =>
      rw [decodeChain_eq_fail hsome hatom hfirst] at h
      cases h
  | case4 chain hsome hatom child hfirst ih =>
      rw [decodeChain_eq_bind hsome hatom hfirst] at h
      obtain ⟨extension, hchild, h⟩ := Logged.bind_result_eq_ok.mp h
      obtain ⟨others, hothers, h⟩ := Logged.bind_result_eq_ok.mp h
      cases h
      obtain ⟨hwell, padding, hshort, hrest⟩ := ih hothers
      obtain ⟨hextension, hchain⟩ := (first_eq_ok hchild).mp hfirst
      refine ⟨List.forall_mem_cons.mpr ⟨hextension, hwell⟩, padding, hshort, ?_⟩
      rw [chainBytes_cons, ← hrest, hchain]

theorem decodeChain_chainBytes (hwell : ∀ extension ∈ extensions, extension.WellFormed)
    {padding : Nat} (hshort : padding < Header.width) :
    (decodeChain (chainBytes extensions padding)).result = .ok extensions := by
  induction extensions with
  | nil =>
      -- a chain may also end without padding, which is another branch
      by_cases hempty : (chainBytes [] padding).isEmpty
      · rw [decodeChain, if_pos hempty]
        rfl
      · have hpadding : Payload.isPadding (chainBytes [] padding) :=
          Payload.isPadding_eq_true.mpr ⟨padding, hshort, rfl⟩
        rw [decodeChain, if_neg hempty, if_pos hpadding]
        rfl
  | cons extension others ih =>
      obtain ⟨hextension, hothers⟩ := List.forall_mem_cons.mp hwell
      let child : Child := ⟨extension.header, extension.body, chainBytes others padding⟩
      have hchild : ofChild child = .ok extension := ofChild_eq_ok.mpr ⟨rfl, rfl, hextension.kind⟩
      have hfirst : first (chainBytes (extension :: others) padding) = .ok child :=
        (first_eq_ok hchild).mpr ⟨hextension, chainBytes_cons padding⟩
      have hchain : chainBytes (extension :: others) padding =
          extension.header.toBytes ++ (extension.body ++ chainBytes others padding) := by
        rw [chainBytes_cons, toBytes, List.append_assoc]
      have hsome : ¬(chainBytes (extension :: others) padding).isEmpty := by
        rw [hchain]
        simp [Header.toBytes, Tag.toBytes]
      have hatom : ¬Payload.isPadding (chainBytes (extension :: others) padding) := by
        rw [hchain]
        exact Payload.not_isPadding_toBytes_append _ _
      rw [decodeChain_eq_bind hsome hatom hfirst]
      refine Logged.bind_result_eq_ok.mpr ⟨extension, hchild, ?_⟩
      exact Logged.bind_result_eq_ok.mpr ⟨others, ih hothers, rfl⟩

/-- Decoding accepts exactly the written forms of well-formed extensions, padded or not. -/
theorem decodeChain_result_eq_ok :
    (decodeChain chain).result = .ok extensions ↔
      (∀ extension ∈ extensions, extension.WellFormed) ∧
        ∃ padding < Header.width, chain = chainBytes extensions padding := by
  constructor
  · exact exists_eq_chainBytes
  · rintro ⟨hwell, padding, hshort, rfl⟩
    exact decodeChain_chainBytes hwell hshort

end MovieAtoms.Extension
