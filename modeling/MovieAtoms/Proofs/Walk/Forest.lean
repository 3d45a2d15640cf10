import MovieAtoms.Proofs.Walk.Search

/-!
# Walks over trees of atoms

A movie is a forest: an atom holds a payload of its own or other atoms. `Forest.walk` gives the
meaning of directives on a list of pending trees, without bytes and without offsets. Main statement:
`run_forest`, by which a walk over the written forest comes to the same records or to the same
error, and leaves exactly the written form of the trees that are still pending.

The invariant is that the unread bytes are the written form of the pending trees. Stepping into a
container keeps it, since the trees inside it are written one after the other right behind its
header: that is why no end of a container has to be looked for.
-/

namespace MovieAtoms

/-- An atom as a tree. -/
inductive Node where
  | leaf (tag : Tag) (payload : Bytes)
  | container (tag : Tag) (children : List Node)

/-- The written form of an atom: its size, its tag and its payload. -/
def atomBytes (tag : Tag) (payload : Bytes) : Bytes :=
  Wire.bigEndian 4 (Header.width + payload.length) ++ (tag.toBytes ++ payload)

def Node.tag : Node → Tag
  | .leaf tag _ => tag
  | .container tag _ => tag

mutual

/-- What is written behind the header of a tree. -/
def Node.payload : Node → Bytes
  | .leaf _ payload => payload
  | .container _ children => Forest.bytes children

/-- The written form of trees, one after the other. -/
def Forest.bytes : List Node → Bytes
  | [] => []
  | node :: others => atomBytes node.tag node.payload ++ Forest.bytes others

end

def Node.header (node : Node) : Header :=
  ⟨UInt32.ofNat (Header.width + node.payload.length), node.tag⟩

namespace Forest

/-- The sizes of the trees, and so of those inside them, fit in four bytes. -/
def Fits (forest : List Node) : Prop :=
  ∀ node ∈ forest, Header.width + node.payload.length < UInt32.size

instance (forest : List Node) : Decidable (Fits forest) :=
  inferInstanceAs (Decidable (∀ node ∈ forest, Header.width + node.payload.length < UInt32.size))

/-- The first pending tree of a tag, and the trees behind it. -/
def seek (tag : Tag) : List Node → Option (Node × List Node)
  | [] => none
  | node :: others => if node.tag = tag then some (node, others) else seek tag others

/-- What directives come to on pending trees, and the trees that are still pending then. There is no
    answer where a directive steps into a leaf. -/
def walk : List Directive → List Node → Option (Except DecodeError (List Atom) × List Node)
  | [], pending => some (.ok [], pending)
  | directive :: others, pending =>
      match seek directive.tag pending with
      | none => some (.error (.targetNotFound directive.tag), [])
      | some (node, behind) =>
          match directive.operation with
          | .skip => walk others behind
          | .read =>
              match (Atom.ofPayload node.header node.payload).result with
              | .error error => some (.error error, behind)
              | .ok atom => (walk others behind).map fun (atoms, left) =>
                  (atoms.map (atom :: ·), left)
          | .stepInto =>
              match node with
              | .leaf .. => none
              | .container _ children => walk others (children ++ behind)

end Forest

/-! ### Written trees -/

namespace Node

variable {node : Node}

theorem size_header (h : Header.width + node.payload.length < UInt32.size) :
    node.header.size.toNat = Header.width + node.payload.length := by
  rw [header, UInt32.toNat_ofNat', Nat.mod_eq_of_lt h]

theorem width_le_size (h : Header.width + node.payload.length < UInt32.size) :
    Header.width ≤ node.header.size.toNat := by
  rw [size_header h]
  exact Nat.le_add_right _ _

theorem payloadLength_header (h : Header.width + node.payload.length < UInt32.size) :
    node.payload.length = node.header.payloadLength := by
  rw [Header.payloadLength, size_header h, Nat.add_sub_cancel_left]

theorem atomBytes_eq (h : Header.width + node.payload.length < UInt32.size) :
    atomBytes node.tag node.payload = node.header.toBytes ++ node.payload := by
  rw [atomBytes, ← size_header h, ← List.append_assoc]
  rfl

end Node

namespace Forest

variable {node : Node} {forest first second behind children : List Node} {tag : Tag}

theorem bytes_cons (h : Header.width + node.payload.length < UInt32.size) (others : List Node) :
    bytes (node :: others) = node.header.toBytes ++ (node.payload ++ bytes others) := by
  rw [bytes, Node.atomBytes_eq h, List.append_assoc]

theorem bytes_append (first second : List Node) :
    bytes (first ++ second) = bytes first ++ bytes second := by
  induction first with
  | nil => rfl
  | cons node others ih => rw [List.cons_append, bytes, bytes, ih, List.append_assoc]

theorem length_payload_le (h : node ∈ forest) : node.payload.length ≤ (bytes forest).length := by
  induction forest with
  | nil => cases h
  | cons head others ih =>
      rw [bytes, List.length_append]
      rcases List.mem_cons.mp h with rfl | hothers
      · simp only [atomBytes, List.length_append]
        omega
      · exact Nat.le_trans (ih hothers) (Nat.le_add_left _ _)

/-- The atoms inside an atom are no larger than that atom. -/
theorem fits_children
    (h : Header.width + (Node.container tag children).payload.length < UInt32.size) :
    Fits children := by
  intro node hnode
  have hle := length_payload_le hnode
  rw [Node.payload] at h
  omega

theorem fits_append (hfirst : Fits first) (hsecond : Fits second) : Fits (first ++ second) := by
  intro node hnode
  rcases List.mem_append.mp hnode with hnode | hnode
  · exact hfirst node hnode
  · exact hsecond node hnode

theorem seek_eq_some (h : seek tag forest = some (node, behind)) :
    node.tag = tag ∧ ∃ front, forest = front ++ node :: behind := by
  induction forest with
  | nil => cases h
  | cons head others ih =>
      rw [seek] at h
      split at h
      · rename_i htag
        cases h
        exact ⟨htag, [], rfl⟩
      · obtain ⟨htag, front, rfl⟩ := ih h
        exact ⟨htag, head :: front, rfl⟩

end Forest

/-! ### Walks over written trees -/

namespace Walk

open Forest

variable {tag : Tag} {node : Node} {forest pending behind left : List Node}

theorem search_of_seek_eq_none (hfits : Fits forest) (h : seek tag forest = none) :
    ∃ events, Search tag .endOfInput (Forest.bytes forest)
      ⟨events, .error (.targetNotFound tag)⟩ [] := by
  induction forest with
  | nil => exact ⟨[], .exhausted⟩
  | cons head others ih =>
      obtain ⟨hhead, hothers⟩ := List.forall_mem_cons.mp hfits
      rw [seek] at h
      split at h
      · cases h
      · rename_i htag
        obtain ⟨events, hsearch⟩ := ih hothers h
        rw [bytes_cons hhead]
        exact ⟨_, .hop (Node.width_le_size hhead) htag (Node.payloadLength_header hhead) hsearch⟩

/-- The search leaves the payload of the atom that it found, be it data or more atoms. -/
theorem search_of_seek_eq_some (hfits : Fits forest) (h : seek tag forest = some (node, behind)) :
    ∃ events, Search tag .endOfInput (Forest.bytes forest) ⟨events, .ok node.header⟩
      (node.payload ++ Forest.bytes behind) := by
  induction forest with
  | nil => cases h
  | cons head others ih =>
      obtain ⟨hhead, hothers⟩ := List.forall_mem_cons.mp hfits
      rw [bytes_cons hhead]
      rw [seek] at h
      split at h
      · rename_i htag
        cases h
        exact ⟨[], .found (Node.width_le_size hhead) htag⟩
      · rename_i htag
        obtain ⟨events, hsearch⟩ := ih hothers h
        exact ⟨_, .hop (Node.width_le_size hhead) htag (Node.payloadLength_header hhead) hsearch⟩

/-- On the written form of the pending trees, directives come to what they mean on the trees. -/
theorem yields_carryOutAll_forest {directives : List Directive}
    {result : Except DecodeError (List Atom)} (hfits : Fits pending)
    (h : Forest.walk directives pending = some (result, left)) (index : Nat) :
    ∃ events, (carryOutAll index directives).Yields (Forest.bytes pending) .endOfInput
      ⟨events, result⟩ (Forest.bytes left) := by
  induction directives generalizing pending index result with
  | nil =>
      cases h
      exact ⟨[], yields_carryOutAll_nil⟩
  | cons directive others ih =>
      obtain ⟨operation, tag⟩ := directive
      rw [Forest.walk] at h
      rcases hseek : seek tag pending with _ | ⟨node, behind⟩
      · obtain ⟨events, hsearch⟩ := search_of_seek_eq_none hfits hseek
        rw [hseek] at h
        cases h
        exact ⟨events, yields_carryOutAll_search_error (yields_of_search hsearch)⟩
      obtain ⟨events, hsearch⟩ := search_of_seek_eq_some hfits hseek
      have hfind := yields_of_search hsearch
      obtain ⟨-, front, rfl⟩ := seek_eq_some hseek
      obtain ⟨hnode, hbehind⟩ := List.forall_mem_cons.mp (List.forall_mem_append.mp hfits).2
      have hlength := Node.payloadLength_header hnode
      rw [hseek] at h
      cases operation with
      | skip =>
          obtain ⟨later, hrest⟩ := ih hbehind h (index + 1)
          have hall := yields_carryOutAll_cons hfind (yields_skip hlength) hrest
          cases result <;> exact ⟨_, hall⟩
      | read =>
          simp only at h
          rcases hdecode : Atom.ofPayload node.header node.payload with ⟨acts, error | record⟩
          · rw [hdecode] at h
            cases h
            exact ⟨_, yields_carryOutAll_act_error hfind (yields_read_refused hlength hdecode)⟩
          · rw [hdecode] at h
            obtain ⟨⟨later, left⟩, hlater, heq⟩ := Option.map_eq_some_iff.mp h
            cases heq
            obtain ⟨acts', hrest⟩ := ih hbehind hlater (index + 1)
            exact ⟨_, yields_carryOutAll_cons hfind (yields_read hlength hdecode) hrest⟩
      | stepInto =>
          cases node with
          | leaf tag payload => cases h
          | container tag children =>
              have hpending := fits_append (fits_children hnode) hbehind
              obtain ⟨later, hrest⟩ := ih hpending h (index + 1)
              rw [bytes_append] at hrest
              have hall := yields_carryOutAll_cons hfind (yields_stepInto _ _ _) hrest
              cases result <;> exact ⟨_, hall⟩

theorem yields_run_forest {fileType : FileType} {directives : List Directive}
    {result : Except DecodeError (List Atom)} (hwell : fileType.WellFormed) (hfits : Fits forest)
    (h : Forest.walk directives forest = some (result, left)) :
    ∃ events, (run directives).Yields (fileType.toBytes ++ Forest.bytes forest) .endOfInput
      ⟨events, result.map fun atoms => ⟨fileType, atoms⟩⟩ (Forest.bytes left) := by
  have hleading := yields_leadingFileType hwell (Forest.bytes forest) .endOfInput
  obtain ⟨events, hatoms⟩ := yields_carryOutAll_forest hfits h 0
  exact ⟨_, yields_run hleading hatoms⟩

/-- A walk over a written file type and a written forest brings home what its directives come to
    on the forest, or fails as they do, and leaves the trees that are still pending. -/
theorem run_forest {fileType : FileType} {directives : List Directive}
    {result : Except DecodeError (List Atom)} (hwell : fileType.WellFormed) (hfits : Fits forest)
    (h : Forest.walk directives forest = some (result, left)) (schedule : Nat → Pace) :
    let source := Source.paced (fileType.toBytes ++ Forest.bytes forest) .endOfInput schedule
    (run directives source).1.result = result.map (fun atoms => ⟨fileType, atoms⟩) ∧
      (run directives source).2.rest = Forest.bytes left := by
  intro source
  obtain ⟨events, hyields⟩ := yields_run_forest hwell hfits h
  have hrest : source.rest = fileType.toBytes ++ Forest.bytes forest := rfl
  obtain ⟨hlog, hleft⟩ := hyields.eq hrest rfl
  exact ⟨congrArg Logged.result hlog, hleft⟩

/-- A file type of movies without compatible brands. -/
def plainFileType : FileType := ⟨⟨16, Tag.fileType⟩, Tag.movieBrand, 0, []⟩

/-- A movie with one track, and free space and data behind it. -/
def smallMovie : List Node := [
  .container (Tag.spelled 'm' 'o' 'o' 'v') [
    .container (Tag.spelled 't' 'r' 'a' 'k') [.leaf (Tag.spelled 't' 'k' 'h' 'd') [1, 2]],
    .leaf (Tag.spelled 'u' 'd' 't' 'a') []],
  .leaf (Tag.spelled 'f' 'r' 'e' 'e') [3],
  .leaf (Tag.spelled 'm' 'd' 'a' 't') [4, 5],
  .leaf (Tag.spelled 'w' 'i' 'd' 'e') []]

/-- Goes into the track and asks for what only follows behind the movie. -/
def dataBehindMovie : List Directive := [
  ⟨.stepInto, Tag.spelled 'm' 'o' 'o' 'v'⟩,
  ⟨.stepInto, Tag.spelled 't' 'r' 'a' 'k'⟩,
  ⟨.skip, Tag.spelled 'f' 'r' 'e' 'e'⟩,
  ⟨.read, Tag.spelled 'm' 'd' 'a' 't'⟩]

theorem walk_smallMovie : Forest.walk dataBehindMovie smallMovie =
    some (.ok [.raw ⟨⟨10, Tag.spelled 'm' 'd' 'a' 't'⟩, [4, 5]⟩],
      [.leaf (Tag.spelled 'w' 'i' 'd' 'e') []]) := rfl

theorem run_smallMovie :
    plainFileType.WellFormed ∧ Fits smallMovie ∧
      (run dataBehindMovie (Source.paced (plainFileType.toBytes ++ Forest.bytes smallMovie)
          .endOfInput fun index => ⟨index % 2, index % 3⟩)).1.result =
        .ok ⟨plainFileType, [.raw ⟨⟨10, Tag.spelled 'm' 'd' 'a' 't'⟩, [4, 5]⟩]⟩ := by
  have hwell : plainFileType.WellFormed := ⟨rfl, rfl⟩
  have hfits : Fits smallMovie := by decide
  exact ⟨hwell, hfits, (run_forest hwell hfits walk_smallMovie _).1⟩

end Walk

end MovieAtoms
