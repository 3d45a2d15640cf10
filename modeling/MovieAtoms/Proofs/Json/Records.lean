import MovieAtoms.Atom.Json
import MovieAtoms.Proofs.Json.Same

/-!
# What the JSON of a record tells

A byte of a tag that is no visible character is shown as a full stop, and that is all the JSON of a
record leaves out. `dotted` puts the full stop into the record itself. Main statement:
`toJson_tells_records`, by which two records have the same JSON value exactly if they are equal once
dotted: all numbers, bytes and texts, the lists with their lengths and orders, and the kind of
record at each level are told.
-/

namespace MovieAtoms

/-! ### Records with full stops in their tags -/

/-- The byte, or the full stop that is shown for it. -/
def dottedByte (byte : UInt8) : UInt8 := if 32 ≤ byte ∧ byte ≤ 126 then byte else 0x2E

def Tag.dotted (tag : Tag) : Tag :=
  ⟨dottedByte tag.first, dottedByte tag.second, dottedByte tag.third, dottedByte tag.fourth⟩

def Header.dotted (header : Header) : Header := { header with tag := header.tag.dotted }

def RawAtom.dotted (atom : RawAtom) : RawAtom := { atom with header := atom.header.dotted }

def FileType.dotted (fileType : FileType) : FileType :=
  { fileType with
    header := fileType.header.dotted
    majorBrand := fileType.majorBrand.dotted
    compatibleBrands := fileType.compatibleBrands.map Tag.dotted }

def MovieHeader.dotted (movie : MovieHeader) : MovieHeader :=
  { movie with header := movie.header.dotted }

def ColorInfo.dotted (color : ColorInfo) : ColorInfo :=
  { color with
    header := color.header.dotted
    parameterType := color.parameterType.dotted }

def AvcConfig.dotted (config : AvcConfig) : AvcConfig :=
  { config with header := config.header.dotted }

def Extension.dotted : Extension → Extension
  | .colorInfo color => .colorInfo color.dotted
  | .avcConfig config => .avcConfig config.dotted
  | .raw atom => .raw atom.dotted

def VideoDescription.dotted (video : VideoDescription) : VideoDescription :=
  { video with
    format := video.format.dotted
    vendor := video.vendor.dotted
    extensions := video.extensions.map Extension.dotted }

def SampleDescription.dotted : SampleDescription → SampleDescription
  | .video description => .video description.dotted
  | .unsupported size format => .unsupported size format.dotted

def SampleTable.dotted (table : SampleTable) : SampleTable :=
  { table with
    header := table.header.dotted
    entries := table.entries.map SampleDescription.dotted }

def Atom.dotted : Atom → Atom
  | .raw atom => .raw atom.dotted
  | .movieHeader movie => .movieHeader movie.dotted
  | .sampleTable table => .sampleTable table.dotted

/-! ### Fields -/

theorem toNat_shownByte (byte : UInt8) :
    (Text.shownByte byte).toNat = (dottedByte byte).toNat := by
  revert byte
  exact forall_byte (by decide +kernel)

theorem shownByte_eq_iff {byte byte' : UInt8} :
    Text.shownByte byte = Text.shownByte byte' ↔ dottedByte byte = dottedByte byte' := by
  rw [← UInt8.toNat_inj, ← toNat_shownByte, ← toNat_shownByte]
  constructor
  · exact congrArg Char.toNat
  · intro h
    rw [← Char.ofNat_toNat (Text.shownByte byte), h, Char.ofNat_toNat]

theorem Tag.text_eq_iff {tag tag' : Tag} : tag.text = tag'.text ↔ tag.dotted = tag'.dotted := by
  simp [Tag.text, Text.shown, toBytes, shownByte_eq_iff, dotted]

namespace Json

@[simp] theorem same_ofUInt8_iff {value value' : UInt8} :
    Same (ofUInt8 value) (ofUInt8 value') ↔ value = value' := by
  rw [ofUInt8, ofUInt8, ofNat, ofNat, same_number_iff, Int.natCast_inj, UInt8.toNat_inj]

@[simp] theorem same_ofUInt16_iff {value value' : UInt16} :
    Same (ofUInt16 value) (ofUInt16 value') ↔ value = value' := by
  rw [ofUInt16, ofUInt16, ofNat, ofNat, same_number_iff, Int.natCast_inj, UInt16.toNat_inj]

@[simp] theorem same_ofUInt32_iff {value value' : UInt32} :
    Same (ofUInt32 value) (ofUInt32 value') ↔ value = value' := by
  rw [ofUInt32, ofUInt32, ofNat, ofNat, same_number_iff, Int.natCast_inj, UInt32.toNat_inj]

@[simp] theorem same_ofTag_iff {tag tag' : Tag} :
    Same (ofTag tag) (ofTag tag') ↔ tag.dotted = tag'.dotted := by
  rw [ofTag, ofTag, same_string_iff, Tag.text_eq_iff]

/-- Arrays of values that are told exactly. -/
theorem same_ofList_exact {encode : α → Json}
    (h : ∀ value value', Same (encode value) (encode value') ↔ value = value')
    {values values' : List α} :
    Same (ofList encode values) (ofList encode values') ↔ values = values' := by
  have hlist : Same (ofList encode values) (ofList encode values') ↔
      values.map id = values'.map id := same_ofList_iff h
  rwa [List.map_id, List.map_id] at hlist

@[simp] theorem same_ofBlock_iff {block block' : Block size} :
    Same (ofBlock block) (ofBlock block') ↔ block = block' := by
  rw [ofBlock, ofBlock, same_ofList_exact fun _ _ => same_ofUInt8_iff]
  cases block
  cases block'
  rw [Block.mk.injEq]

@[simp] theorem same_ofBytes_iff {bytes bytes' : Bytes} :
    Same (ofBytes bytes) (ofBytes bytes') ↔ bytes = bytes' := by
  rw [ofBytes, ofBytes, same_string_iff, String.ofList_inj]
  constructor
  · intro h
    have hread := congrArg Text.Hex.bytes? h
    rwa [Text.Hex.bytes?_ofBytes, Text.Hex.bytes?_ofBytes, Option.some.injEq] at hread
  · rintro rfl
    rfl

@[simp] theorem same_matrix_iff {matrix matrix' : Matrix} :
    Same (ofList (fun value => .number value.toInt) matrix.toList)
      (ofList (fun value => .number value.toInt) matrix'.toList) ↔ matrix = matrix' := by
  rw [same_ofList_exact fun _ _ => by rw [same_number_iff, Int32.toInt_inj]]
  cases matrix
  cases matrix'
  simp [Matrix.toList]

@[simp] theorem same_ofTags_iff {tags tags' : List Tag} :
    Same (ofList ofTag tags) (ofList ofTag tags') ↔ tags.map Tag.dotted = tags'.map Tag.dotted :=
  same_ofList_iff fun _ _ => same_ofTag_iff

@[simp] theorem sameMember_iff {name : String} {value value' : Json} :
    SameMember (name, value) (name, value') ↔ Same value value' := by
  simp [SameMember]

@[simp] theorem same_ofHeader_iff {header header' : Header} :
    Same (ofHeader header) (ofHeader header') ↔ header.dotted = header'.dotted := by
  refine (same_object_iff ?_ ?_).trans ?_
  · rfl
  · simp
  · simp [Header.dotted]

/-! ### Kinds -/

/-- Each name is taken once, and none of them is that of the kind. -/
def NamedOnce (members : List (String × Json)) : Prop :=
  ("kind" :: members.map Prod.fst).Nodup

variable {kind kind' : String} {members members' : List (String × Json)}

theorem same_tagged_iff (hsame : members.map Prod.fst = members'.map Prod.fst)
    (hnames : NamedOnce members) :
    Same (tagged kind members) (tagged kind members') ↔
      List.Forall₂ SameMember members members' := by
  refine (same_object_iff ?_ ?_).trans ?_
  · simp [hsame]
  · exact hnames
  · simp

/-- Records of two kinds are never the same, whatever their members are. -/
theorem not_same_tagged (hkinds : kind ≠ kind') (hnames : NamedOnce members)
    (hnames' : NamedOnce members') : ¬Same (tagged kind members) (tagged kind' members') := by
  rintro ⟨⟩
  rename_i hmembers
  have hvalues := hmembers "kind"
  rw [← List.nil_append (("kind", Json.string kind) :: members),
    ← List.nil_append (("kind", Json.string kind') :: members'),
    member?_append_cons (List.nodup_cons.mp hnames).1,
    member?_append_cons (List.nodup_cons.mp hnames').1, Option.rel_some_some,
    same_string_iff] at hvalues
  exact hkinds hvalues

end Json

open Json

/-! ### Extensions -/

theorem RawAtom.sameMembers_iff {atom atom' : RawAtom} :
    List.Forall₂ SameMember atom.members atom'.members ↔ atom.dotted = atom'.dotted := by
  simp [members, dotted]

theorem RawAtom.namedOnce (atom : RawAtom) : NamedOnce atom.members := by
  simp [NamedOnce, members]

theorem ColorInfo.sameMembers_iff {color color' : ColorInfo} :
    List.Forall₂ SameMember color.members color'.members ↔ color.dotted = color'.dotted := by
  simp [members, dotted]

theorem ColorInfo.namedOnce (color : ColorInfo) : NamedOnce color.members := by
  simp [NamedOnce, members]

theorem AvcConfig.sameMembers_iff {config config' : AvcConfig} :
    List.Forall₂ SameMember config.members config'.members ↔ config.dotted = config'.dotted := by
  simp [members, dotted]

theorem AvcConfig.namedOnce (config : AvcConfig) : NamedOnce config.members := by
  simp [NamedOnce, members]

theorem Extension.toJson_same_iff (extension extension' : Extension) :
    Same extension.toJson extension'.toJson ↔ extension.dotted = extension'.dotted := by
  cases extension <;> cases extension'
  case colorInfo.colorInfo color color' =>
    simp only [dotted, Extension.colorInfo.injEq, ← ColorInfo.sameMembers_iff]
    exact same_tagged_iff rfl color.namedOnce
  case avcConfig.avcConfig config config' =>
    simp only [dotted, Extension.avcConfig.injEq, ← AvcConfig.sameMembers_iff]
    exact same_tagged_iff rfl config.namedOnce
  case raw.raw atom atom' =>
    simp only [dotted, Extension.raw.injEq, ← RawAtom.sameMembers_iff]
    exact same_tagged_iff rfl atom.namedOnce
  all_goals
    simp only [dotted, reduceCtorEq, iff_false]
    apply not_same_tagged
    · decide
    · simp only [ColorInfo.namedOnce, AvcConfig.namedOnce, RawAtom.namedOnce]
    · simp only [ColorInfo.namedOnce, AvcConfig.namedOnce, RawAtom.namedOnce]

/-! ### Sample tables -/

theorem VideoDescription.sameMembers_iff {video video' : VideoDescription} :
    List.Forall₂ SameMember video.members video'.members ↔ video.dotted = video'.dotted := by
  simp [members, dotted, same_ofList_iff Extension.toJson_same_iff, Int16.toInt_inj]

theorem VideoDescription.namedOnce (video : VideoDescription) : NamedOnce video.members := by
  simp [NamedOnce, members]

theorem SampleDescription.toJson_same_iff (entry entry' : SampleDescription) :
    Same entry.toJson entry'.toJson ↔ entry.dotted = entry'.dotted := by
  cases entry <;> cases entry'
  case video.video video video' =>
    simp only [dotted, SampleDescription.video.injEq, ← VideoDescription.sameMembers_iff]
    exact same_tagged_iff rfl video.namedOnce
  case unsupported.unsupported size format size' format' =>
    refine (same_tagged_iff ?_ ?_).trans ?_
    · rfl
    · simp [NamedOnce]
    · simp [dotted]
  all_goals
    simp only [dotted, reduceCtorEq, iff_false]
    apply not_same_tagged
    · decide
    · simp [NamedOnce, VideoDescription.members]
    · simp [NamedOnce, VideoDescription.members]

theorem SampleTable.sameMembers_iff {table table' : SampleTable} :
    List.Forall₂ SameMember table.members table'.members ↔ table.dotted = table'.dotted := by
  simp [members, dotted, same_ofList_iff SampleDescription.toJson_same_iff]

theorem SampleTable.namedOnce (table : SampleTable) : NamedOnce table.members := by
  simp [NamedOnce, members]

/-! ### Atoms -/

theorem Timestamp.seconds_inj {time time' : Timestamp} :
    time.seconds = time'.seconds ↔ time = time' := by
  cases time
  cases time'
  rw [Timestamp.mk.injEq]

theorem MovieHeader.sameMembers_iff {movie movie' : MovieHeader} :
    List.Forall₂ SameMember movie.members movie'.members ↔ movie.dotted = movie'.dotted := by
  simp [members, dotted, Timestamp.seconds_inj]

theorem MovieHeader.namedOnce (movie : MovieHeader) : NamedOnce movie.members := by
  simp [NamedOnce, members]

theorem Atom.toJson_same_iff (atom atom' : Atom) :
    Same atom.toJson atom'.toJson ↔ atom.dotted = atom'.dotted := by
  cases atom <;> cases atom'
  case raw.raw atom atom' =>
    simp only [dotted, Atom.raw.injEq, ← RawAtom.sameMembers_iff]
    exact same_tagged_iff rfl atom.namedOnce
  case movieHeader.movieHeader movie movie' =>
    simp only [dotted, Atom.movieHeader.injEq, ← MovieHeader.sameMembers_iff]
    exact same_tagged_iff rfl movie.namedOnce
  case sampleTable.sampleTable table table' =>
    simp only [dotted, Atom.sampleTable.injEq, ← SampleTable.sameMembers_iff]
    exact same_tagged_iff rfl table.namedOnce
  all_goals
    simp only [dotted, reduceCtorEq, iff_false]
    apply not_same_tagged
    · decide
    · simp only [RawAtom.namedOnce, MovieHeader.namedOnce, SampleTable.namedOnce]
    · simp only [RawAtom.namedOnce, MovieHeader.namedOnce, SampleTable.namedOnce]

theorem FileType.toJson_same_iff (fileType fileType' : FileType) :
    Same fileType.toJson fileType'.toJson ↔ fileType.dotted = fileType'.dotted := by
  refine (same_object_iff ?_ ?_).trans ?_
  · rfl
  · simp [members]
  · simp [members, dotted]

/-- Two records that a walk brings home have the same JSON value exactly if they differ at most in
    bytes of tags that are shown as full stops; and so have two file types. -/
theorem toJson_tells_records :
    (∀ atom atom' : Atom, Same atom.toJson atom'.toJson ↔ atom.dotted = atom'.dotted) ∧
      ∀ fileType fileType' : FileType,
        Same fileType.toJson fileType'.toJson ↔ fileType.dotted = fileType'.dotted :=
  ⟨Atom.toJson_same_iff, FileType.toJson_same_iff⟩

end MovieAtoms
