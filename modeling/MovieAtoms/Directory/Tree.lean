import MovieAtoms.Directory

/-!
# Trees of files

Files held in memory, each at a place below a root, and the rules by which a path finds them. A path
is followed name by name, from the root if it starts with a slash and else from the working
directory. Every name, also the empty one behind a last slash, needs a directory to be looked up in.

Main statements: `intercalate_names`, by which nothing of a path is lost between its names, and
`holds_of_find`, by which a path finds nothing that the tree does not hold.
-/

namespace MovieAtoms

/-- The names that lead from the root to a file or a directory, the last one first. -/
abbrev Place := List String

/-- Where a name leads. The empty name and the dot stay, two dots go up; the root is above itself. -/
def Place.step (place : Place) (name : String) : Place :=
  if name = "" ∨ name = "." then place
  else if name = ".." then place.tail
  else name :: place

/-- Files with their bytes, and the directory in which a path starts. -/
structure FileTree where
  files : List (Place × Bytes)
  working : Place

namespace FileTree

/-- The bytes of the file at a place; the first of a place counts. -/
def file? (tree : FileTree) (place : Place) : Option Bytes := tree.files.lookup place

/-- Whether a place is on the way to a file or to the working directory. -/
def isDirectory (tree : FileTree) (place : Place) : Bool :=
  place.isSuffixOf tree.working || tree.files.any fun (inner, _) => place.isSuffixOf inner.tail

def holds (tree : FileTree) (place : Place) : Bool :=
  (tree.file? place).isSome || tree.isDirectory place

/-- A name has at most so many bytes. -/
def longestName : Nat := 255

/-- A path has at most so many bytes. -/
def longestPath : Nat := 4095

/-- One step of a path: the place of a name that is looked up at a place. -/
def enter (tree : FileTree) (place : Place) (name : String) : Except OpenError Place :=
  if (tree.file? place).isSome then .error .notADirectory
  else if longestName < name.utf8ByteSize then .error .nameTooLong
  else if tree.holds (place.step name) then .ok (place.step name)
  else .error .missing

/-- The names between the slashes of a path. -/
def names : List Char → List (List Char)
  | [] => [[]]
  | c :: rest => if c = '/' then [] :: names rest else (names rest).modifyHead (c :: ·)

/-- Where a path starts. -/
def start (tree : FileTree) (path : List Char) : Place :=
  if path.head? = some '/' then [] else tree.working

/-- The place that a path leads to. -/
def find (tree : FileTree) (path : String) : Except OpenError Place :=
  if '\x00' ∈ path.toList then .error .nullCharacter
  else if path = "" then .error .missing
  else if longestPath < path.utf8ByteSize then .error .nameTooLong
  else ((names path.toList).map String.ofList).foldlM tree.enter (tree.start path.toList)

/-- What can be opened by its path. -/
def directory (tree : FileTree) : Directory := fun path =>
  (tree.find path).map fun place =>
    match tree.file? place with
    | some bytes => .ofBytes bytes
    | none => .ofDirectory

/-- The files at the places that their paths name, with the root as the working directory. -/
def ofFiles (files : List (String × Bytes)) : FileTree where
  files := files.map fun (path, bytes) =>
    (((names path.toList).map String.ofList).foldl Place.step [], bytes)
  working := []

theorem names_ne_nil (path : List Char) : names path ≠ [] := by
  induction path with
  | nil => simp [names]
  | cons c rest ih =>
    by_cases slash : c = '/'
    · simp [names, slash]
    · simpa [names, slash] using ih

/-- Nothing of a path is lost between its names. -/
theorem intercalate_names (path : List Char) : ['/'].intercalate (names path) = path := by
  induction path with
  | nil => rfl
  | cons c rest ih =>
    obtain ⟨first, more, split⟩ := List.exists_cons_of_ne_nil (names_ne_nil rest)
    rw [split] at ih
    by_cases slash : c = '/'
    · simpa [names, slash, split, List.intercalate] using ih
    · cases more <;> simp_all [names, List.intercalate]

/-- A step of a path finds nothing that the tree does not hold. -/
theorem holds_of_enter {tree : FileTree} {place last : Place} {name : String}
    (h : tree.enter place name = .ok last) : tree.holds last := by
  unfold enter at h
  split at h
  · cases h
  · split at h
    · cases h
    · split at h
      · next held => cases h; exact held
      · cases h

theorem holds_start (tree : FileTree) (path : List Char) : tree.holds (tree.start path) := by
  unfold start
  split <;> simp [holds, isDirectory]

theorem holds_of_foldlM_enter {tree : FileTree} {first last : Place} {names : List String}
    (held : tree.holds first) (h : names.foldlM tree.enter first = .ok last) :
    tree.holds last := by
  induction names generalizing first with
  | nil => cases h; exact held
  | cons name names ih =>
    rw [List.foldlM_cons] at h
    cases entered : tree.enter first name with
    | error cause => rw [entered] at h; cases h
    | ok next => rw [entered] at h; exact ih (holds_of_enter entered) h

/-- A path finds nothing that the tree does not hold. -/
theorem holds_of_find {tree : FileTree} {path : String} {place : Place}
    (h : tree.find path = .ok place) : tree.holds place := by
  unfold find at h
  split at h
  · cases h
  · split at h
    · cases h
    · split at h
      · cases h
      · exact holds_of_foldlM_enter (tree.holds_start path.toList) h

end FileTree

end MovieAtoms
