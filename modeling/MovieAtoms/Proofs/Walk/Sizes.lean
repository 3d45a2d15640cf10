import MovieAtoms.Proofs.SampleTable.Draft
import MovieAtoms.Proofs.Walk.Records

/-!
# Sizes add up

Every record states the size of its atom, and every byte of this size has a place: it belongs to the
header, to a fixed field, to a part that the record holds, or to the few zero bytes behind the last
part. `Accounts` says so level by level, for an extension, a video description, a sample
description, a sample table and an atom. Main statement: `run_accounts`, by which this is so for
all that a walk brings home, whatever the source holds.
-/

namespace MovieAtoms

def totalSize : List UInt32 → Nat
  | [] => 0
  | size :: others => size.toNat + totalSize others

/-! ### Extensions -/

namespace Extension

def size (extension : Extension) : UInt32 := extension.header.size

/-- Colour parameters have fixed fields in front of their trailing bytes; everything else is kept
    whole. -/
def Accounts : Extension → Prop
  | .colorInfo color => color.header.size.toNat = 18 + color.trailing.length
  | .avcConfig config => config.header.size.toNat = Header.width + config.record.length
  | .raw atom => atom.header.size.toNat = Header.width + atom.payload.length

theorem WellFormed.accounts {extension : Extension} (h : extension.WellFormed) :
    extension.Accounts := by
  have hsize := h.size
  cases extension with
  | colorInfo color =>
      have hbody : color.body.length = 10 + color.trailing.length := by
        simp only [ColorInfo.body, List.length_append, Tag.length_toBytes, Wire.ofUInt16,
          Wire.length_bigEndian]
      refine hsize.trans ?_
      rw [body, hbody, ← Nat.add_assoc, Header.width]
  | avcConfig config => exact hsize
  | raw atom => exact hsize

theorem length_chainBytes {extensions : List Extension}
    (h : ∀ extension ∈ extensions, extension.WellFormed) (padding : Nat) :
    (chainBytes extensions padding).length = totalSize (extensions.map size) + padding := by
  induction extensions with
  | nil => rw [chainBytes, List.length_append, List.length_replicate]; rfl
  | cons extension others ih =>
      obtain ⟨hextension, hothers⟩ := List.forall_mem_cons.mp h
      rw [chainBytes_cons, List.length_append, hextension.length_toBytes, ih hothers,
        List.map_cons, totalSize, size, Nat.add_assoc]

end Extension

/-! ### Entries of a sample table -/

/-- The fixed fields, the extensions and padding make up the size of a video description, of which
    `bytes` is the written form. -/
structure VideoDescription.Accounts (video : VideoDescription) (bytes : Bytes) : Prop where
  extensions : ∀ extension ∈ video.extensions, extension.Accounts
  size : ∃ padding < Header.width,
    video.size.toNat = leastSize + totalSize (video.extensions.map Extension.size) + padding ∧
      List.replicate padding 0 <:+ bytes

namespace SampleDescription

/-- A sample description states the size of `bytes`, which begin with its header. -/
structure Accounts (entry : SampleDescription) (bytes : Bytes) : Prop where
  header : entry.header.toBytes <+: bytes
  width_le_size : Header.width ≤ entry.size.toNat
  size : entry.size.toNat = bytes.length
  video : ∀ description, entry = .video description → description.Accounts bytes

variable {entry : SampleDescription} {bytes : Bytes}

theorem WrittenAs.accounts (h : entry.WrittenAs bytes) : entry.Accounts bytes := by
  refine ⟨?_, h.width_le_size, h.length_eq.symm, ?_⟩
  · obtain ⟨body, rfl, -⟩ := h
    exact List.prefix_append _ _
  · -- `hsize` counts the body, which is taken apart into fields, extensions and padding
    rintro description rfl
    obtain ⟨body, hbytes, hsize, hbody⟩ := h
    obtain ⟨-, hwell, name, -, padding, hshort, hbody⟩ := hbody
    rw [size, hbody, List.length_append, Extension.length_chainBytes hwell, ← Nat.add_assoc,
      description.length_fixedBytes, ← Nat.add_assoc] at hsize
    rw [hbody, Extension.chainBytes, ← List.append_assoc, ← List.append_assoc] at hbytes
    refine ⟨fun extension hextension => (hwell extension hextension).accounts, padding, hshort,
      hsize, ?_⟩
    rw [hbytes]
    exact List.suffix_append _ _

theorem totalSize_eq_length {entries : List SampleDescription} {pieces : List Bytes}
    (h : List.Forall₂ Accounts entries pieces) :
    totalSize (entries.map size) = pieces.flatten.length := by
  induction h with
  | nil => rfl
  | cons hentry _ ih =>
      rw [List.map_cons, totalSize, ih, hentry.size, List.flatten_cons, List.length_append]

end SampleDescription

/-! ### Sample tables -/

namespace SampleTable

/-- The header, the fixed fields, the entries and padding make up the size of a sample table, of
    which `payload` is the written form. The number of entries stands in front of them. -/
structure Accounts (table : SampleTable) (payload : Bytes) : Prop where
  count : table.entries.length = Wire.number ((payload.drop 4).take 4)
  entries : ∃ pieces, List.Forall₂ SampleDescription.Accounts table.entries pieces ∧
    ∃ padding < Header.width,
      payload.drop 8 = pieces.flatten ++ List.replicate padding 0 ∧
        table.header.size.toNat =
          16 + totalSize (table.entries.map SampleDescription.size) + padding

theorem WrittenAs.accounts {table : SampleTable} {payload : Bytes} (h : table.WrittenAs payload)
    (hsize : table.header.size.toNat = Header.width + payload.length) : table.Accounts payload := by
  obtain ⟨declared, hdeclared, pieces, hpieces, padding, hshort, hpayload⟩ := h
  have haccounts : List.Forall₂ SampleDescription.Accounts table.entries pieces :=
    hpieces.imp fun _ _ hentry => hentry.accounts
  have hfront : (Wire.ofUInt8 table.version ++ table.flags.bytes).length = 4 := by
    rw [List.length_append, table.flags.length_bytes]
    rfl
  have hcount : payload.drop 4 =
      Wire.ofUInt32 declared ++ (pieces.flatten ++ List.replicate padding 0) := by
    rw [hpayload, ← List.append_assoc, ← hfront, List.drop_left]
  have hentries : payload.drop 8 = pieces.flatten ++ List.replicate padding 0 :=
    calc
      payload.drop 8 = (payload.drop 4).drop 4 := by rw [List.drop_drop]
      _ = pieces.flatten ++ List.replicate padding 0 := by rw [hcount]; rfl
  refine ⟨?_, pieces, haccounts, padding, hshort, hentries, ?_⟩
  · rw [hcount, ← hdeclared, ← Wire.number_ofUInt32]
    rfl
  · have hlength := congrArg List.length hpayload
    simp only [List.length_append, List.length_replicate] at hlength hfront
    rw [Wire.ofUInt32, Wire.length_bigEndian] at hlength
    rw [hsize, SampleDescription.totalSize_eq_length haccounts, Header.width]
    omega

end SampleTable

/-! ### Atoms -/

/-- The header and `payload` make up the size of an atom, and the record tells where the payload
    goes. -/
def Atom.Accounts (atom : Atom) (payload : Bytes) : Prop :=
  atom.size.toNat = Header.width + payload.length ∧
    match atom with
    | .raw record => record.payload = payload
    | .movieHeader movie => 108 ≤ movie.header.size.toNat
    | .sampleTable table => table.Accounts payload

theorem Atom.WrittenAs.accounts {atom : Atom} {payload : Bytes} (h : atom.WrittenAs payload)
    (hsize : atom.size.toNat = Header.width + payload.length) : atom.Accounts payload := by
  refine ⟨hsize, ?_⟩
  cases atom with
  | raw record => exact h
  | movieHeader movie =>
      obtain ⟨unread, hpayload⟩ := h
      have hmovie : movie.header.size.toNat = Header.width + payload.length := hsize
      rw [hpayload, List.length_append, movie.length_payload, Header.width] at hmovie
      have hleast : 108 ≤ movie.header.size.toNat := by omega
      exact hleast
  | sampleTable table => exact SampleTable.WrittenAs.accounts h hsize

theorem FileType.WellFormed.size_eq {fileType : FileType} (h : fileType.WellFormed) :
    fileType.header.size.toNat = 16 + 4 * fileType.compatibleBrands.length := by
  rw [h.size, payload, List.length_append, List.length_append, length_flatMap_toBytes,
    Tag.length_toBytes, Wire.ofUInt32, Wire.length_bigEndian, Header.width, ← Nat.add_assoc]

namespace Walk

/-- Whatever the source holds, the size of every record that a walk brings home is used up exactly
    by the parts of the record, down to the extensions of the entries of its sample tables. -/
theorem run_accounts {directives : List Directive} {source : Source} {extraction : Extraction}
    (h : (run directives source).1.result = .ok extraction) :
    extraction.fileType.header.size.toNat =
        16 + 4 * extraction.fileType.compatibleBrands.length ∧
      ∀ atom ∈ extraction.atoms, ∃ front payload tail,
        source.rest = front ++ (atom.header.toBytes ++ (payload ++ tail)) ∧
          (Atom.ofPayload atom.header payload).result = .ok atom ∧ atom.Accounts payload := by
  obtain ⟨behind, hrest, hwell, hholds, -⟩ := holds_of_run_ok h
  refine ⟨hwell.size_eq, fun atom hatom => ?_⟩
  have hwhole := hholds.append_left extraction.fileType.toBytes
  rw [← hrest] at hwhole
  obtain ⟨front, payload, tail, hsource, hsize, hdecode⟩ := hwhole.exists_of_mem hatom
  obtain ⟨-, -, hwritten⟩ := Atom.ofPayload_result_eq_ok.mp hdecode
  exact ⟨front, payload, tail, hsource, hdecode, hwritten.accounts hsize.symm⟩

/-- A movie header with the defaults of a new movie. -/
def newMovie : MovieHeader where
  header := ⟨109, Tag.movieHeader⟩
  version := 0
  flags := ⟨[0, 0, 0], rfl⟩
  creationTime := ⟨0⟩
  modificationTime := ⟨0⟩
  timeScale := 600
  duration := 1200
  rate := 0x10000
  volume := 0x100
  reserved := ⟨List.replicate 10 0, rfl⟩
  matrix := ⟨0x10000, 0, 0, 0, 0x10000, 0, 0, 0, 0x40000000⟩
  previewTime := 0
  previewDuration := 0
  posterTime := 0
  selectionTime := 0
  selectionDuration := 0
  currentTime := 0
  nextTrackId := 2

/-- A movie header with a byte too many, a sample table, and free space. -/
def tableMovie : List Node := [
  .leaf Tag.movieHeader (newMovie.payload ++ [7]),
  paddedTable.node,
  .leaf (Tag.spelled 'f' 'r' 'e' 'e') [3]]

def readEverything : List Directive := [
  ⟨.read, Tag.movieHeader⟩,
  ⟨.read, Tag.sampleTable⟩,
  ⟨.read, Tag.spelled 'f' 'r' 'e' 'e'⟩]

def tableRecords : List Atom := [
  .movieHeader newMovie,
  .sampleTable paddedTable.record,
  .raw ⟨⟨9, Tag.spelled 'f' 'r' 'e' 'e'⟩, [3]⟩]

theorem walk_tableMovie :
    Forest.walk readEverything tableMovie = some (.ok tableRecords, []) := by
  let header : Node := .leaf Tag.movieHeader (newMovie.payload ++ [7])
  have hmovie : (Atom.ofPayload header.header header.payload).result =
      .ok (.movieHeader newMovie) :=
    Atom.ofPayload_result_eq_ok.mpr ⟨rfl, rfl, [7], rfl⟩
  have htable : (Atom.ofPayload paddedTable.node.header paddedTable.node.payload).result =
      .ok (.sampleTable paddedTable.record) :=
    Atom.ofPayload_result_eq_ok.mpr
      ⟨rfl, rfl, SampleTable.Draft.record_writtenAs fits_paddedTable⟩
  have hsecond : Forest.seek Tag.sampleTable (tableMovie.drop 1) =
      some (paddedTable.node, tableMovie.drop 2) := rfl
  have hfirst : Forest.seek Tag.movieHeader tableMovie = some (header, tableMovie.drop 1) := rfl
  rw [readEverything, Forest.walk]
  simp only [hfirst, hmovie]
  rw [Forest.walk]
  simp only [hsecond, htable]
  rfl

theorem run_accounts_tableMovie :
    let source := Source.ofBytes (plainFileType.toBytes ++ Forest.bytes tableMovie)
    (run readEverything source).1.result = .ok ⟨plainFileType, tableRecords⟩ ∧
      plainFileType.header.size.toNat = 16 ∧
      ∃ payload, (Atom.sampleTable paddedTable.record).Accounts payload := by
  intro source
  have hwell : plainFileType.WellFormed := ⟨rfl, rfl⟩
  have hfits : Forest.Fits tableMovie := by decide +kernel
  obtain ⟨events, hyields⟩ := yields_run_forest hwell hfits walk_tableMovie
  have hrest : source.rest = plainFileType.toBytes ++ Forest.bytes tableMovie := rfl
  have hrun : (run readEverything source).1.result = .ok ⟨plainFileType, tableRecords⟩ :=
    congrArg Logged.result (hyields.eq hrest rfl).1
  obtain ⟨hfileType, hatoms⟩ := run_accounts hrun
  obtain ⟨front, payload, tail, -, -, haccounts⟩ :=
    hatoms (.sampleTable paddedTable.record) (by simp [tableRecords])
  exact ⟨hrun, hfileType, payload, haccounts⟩

end Walk

end MovieAtoms
