import MovieAtoms.Atom.Raw
import MovieAtoms.Logged
import MovieAtoms.Payload

/-!
# Extensions of a video description

Small atoms follow the fixed fields of a video description up to its end: colour parameters, the
decoder configuration of H.264, and others that are kept raw. Some writers close the chain with up
to seven zero bytes.
-/

namespace MovieAtoms

/-- How the numbers of a picture stand for colours. -/
structure ColorInfo where
  header : Header
  parameterType : Tag
  primariesIndex : UInt16
  transferFunctionIndex : UInt16
  matrixIndex : UInt16
  trailing : Bytes
deriving DecidableEq, Repr

namespace ColorInfo

def fixedFields : Field (Tag × UInt16 × UInt16 × UInt16) := do
  return (← Tag.field, ← Field.u16, ← Field.u16, ← Field.u16)

def decode (header : Header) (body : Bytes) : Except DecodeError ColorInfo :=
  (Payload.fixedFields Tag.colorInfo fixedFields body).map
    fun ((parameterType, primaries, transferFunction, matrix), trailing) =>
      ⟨header, parameterType, primaries, transferFunction, matrix, trailing⟩

def body (color : ColorInfo) : Bytes :=
  color.parameterType.toBytes ++ Wire.ofUInt16 color.primariesIndex ++
    Wire.ofUInt16 color.transferFunctionIndex ++ Wire.ofUInt16 color.matrixIndex ++ color.trailing

theorem fixedFields_eq_some {parameterType : Tag} {primaries transferFunction matrix : UInt16}
    {bytes rest : Bytes} :
    fixedFields bytes = some ((parameterType, primaries, transferFunction, matrix), rest) ↔
      bytes = parameterType.toBytes ++ (Wire.ofUInt16 primaries ++
        (Wire.ofUInt16 transferFunction ++ (Wire.ofUInt16 matrix ++ rest))) := by
  simp only [fixedFields, Field.bind_eq_some_inner, Field.pure_eq_some, Tag.field_eq_some,
    Field.u16_eq_some, Prod.mk.injEq, and_assoc, exists_and_left, exists_eq_left]

/-- Decoding accepts exactly the written forms. -/
theorem decode_eq_ok {header : Header} {bytes : Bytes} {color : ColorInfo} :
    decode header bytes = .ok color ↔ color.header = header ∧ bytes = color.body := by
  obtain ⟨own, parameterType, primaries, transferFunction, matrix, trailing⟩ := color
  simp only [decode, DecodeError.map_eq_ok, body, List.append_assoc]
  constructor
  · rintro ⟨⟨⟨_, _, _, _⟩, _⟩, hfields, heq⟩
    cases heq
    exact ⟨rfl, fixedFields_eq_some.mp (Payload.fixedFields_eq_ok.mp hfields)⟩
  · rintro ⟨rfl, hbytes⟩
    exact ⟨_, Payload.fixedFields_eq_ok.mpr (fixedFields_eq_some.mpr hbytes), rfl⟩

/-- Whether the samples use the full range of their numbers: the highest bit of the first trailing
    byte, where the parameter type has one. -/
def fullRange? (color : ColorInfo) : Option Bool :=
  if color.parameterType = Tag.rangedColor then
    color.trailing.head?.map fun byte => byte &&& 0x80 ≠ 0
  else none

end ColorInfo

/-- The configuration record of an H.264 decoder, kept as it is. -/
structure AvcConfig where
  header : Header
  record : Bytes
deriving DecidableEq, Repr

namespace AvcConfig

def version? (config : AvcConfig) : Option UInt8 := config.record[0]?

def profile? (config : AvcConfig) : Option UInt8 := config.record[1]?

def compatibility? (config : AvcConfig) : Option UInt8 := config.record[2]?

def level? (config : AvcConfig) : Option UInt8 := config.record[3]?

/-- The bytes of the length in front of each unit of the stream: one to four, in the two lowest
    bits, less one. -/
def unitLengthSize? (config : AvcConfig) : Option UInt8 :=
  config.record[4]?.map fun byte => (byte &&& 3) + 1

end AvcConfig

/-- An atom after the fixed fields of a video description. -/
inductive Extension where
  | colorInfo (color : ColorInfo)
  | avcConfig (config : AvcConfig)
  | raw (atom : RawAtom)
deriving DecidableEq, Repr

namespace Extension

def header : Extension → Header
  | .colorInfo color => color.header
  | .avcConfig config => config.header
  | .raw atom => atom.header

def body : Extension → Bytes
  | .colorInfo color => color.body
  | .avcConfig config => config.record
  | .raw atom => atom.payload

def toBytes (extension : Extension) : Bytes := extension.header.toBytes ++ extension.body

def ofChild (child : Child) : Except DecodeError Extension :=
  if child.header.tag = Tag.colorInfo then
    (ColorInfo.decode child.header child.body).map .colorInfo
  else if child.header.tag = Tag.avcConfig then .ok (.avcConfig ⟨child.header, child.body⟩)
  else .ok (.raw ⟨child.header, child.body⟩)

def first (chain : Bytes) : Except DecodeError Child :=
  Payload.firstChild Tag.avcVideo
    (fun header => .extensionOverrun header.tag header.size.toNat chain.length) chain

/-- All extensions of a chain, up to its end or the padding in front of it. -/
def decodeChain (chain : Bytes) : Logged (List Extension) :=
  if chain.isEmpty then return []
  else if Payload.isPadding chain then do
    Logged.report (.ignoringPadding chain.length)
    return []
  else
    match _h : first chain with
    | .error error => Logged.fail error
    | .ok child => do
        let extension ← Logged.ofExcept (ofChild child)
        let others ← decodeChain child.rest
        return extension :: others
termination_by chain.length
decreasing_by exact Payload.length_rest_lt _h

section

variable {chain : Bytes} (hsome : ¬chain.isEmpty) (hatom : ¬Payload.isPadding chain)

include hsome hatom

theorem decodeChain_eq_fail {error : DecodeError} (h : first chain = .error error) :
    decodeChain chain = Logged.fail error := by
  rw [decodeChain, if_neg hsome, if_neg hatom]
  split
  · rename_i hfirst
    rw [Except.error.inj (h.symm.trans hfirst)]
  · rename_i hfirst
    cases h.symm.trans hfirst

theorem decodeChain_eq_bind {child : Child} (h : first chain = .ok child) :
    decodeChain chain = (do
      let extension ← Logged.ofExcept (ofChild child)
      let others ← decodeChain child.rest
      return extension :: others) := by
  rw [decodeChain, if_neg hsome, if_neg hatom]
  split
  · rename_i hfirst
    cases h.symm.trans hfirst
  · rename_i hfirst
    rw [Except.ok.inj (h.symm.trans hfirst)]

end

end Extension

end MovieAtoms
