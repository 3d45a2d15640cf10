import MovieAtoms.Atom.SampleDescription

/-!
# Sample tables

A sample table lists the sample descriptions of a track. It declares how many there are, and the
descriptions fill its payload up to padding of at most seven zero bytes. The declared number of
entries is decoded first and whatever follows them after that, so a table with too many entries is
told from one that breaks off.
-/

namespace MovieAtoms

structure SampleTable where
  header : Header
  version : UInt8
  flags : Block 3
  entries : List SampleDescription
deriving DecidableEq, Repr

namespace SampleTable

def fixedFields : Field (UInt8 × Block 3 × UInt32) := do
  return (← Field.u8, ← Field.block 3, ← Field.u32)

def firstEntry (payload : Bytes) : Except DecodeError Child :=
  Payload.firstChild Tag.sampleTable (fun header => .truncated header.tag) payload

/-- So many entries, and what follows them. -/
def decodeEntries : (count : Nat) → Bytes → Logged (List SampleDescription × Bytes)
  | 0, payload => return ([], payload)
  | count + 1, payload => do
      let child ← Logged.ofExcept (firstEntry payload)
      let entry ← SampleDescription.ofChild child
      let (others, rest) ← decodeEntries count child.rest
      return (entry :: others, rest)

/-- All entries up to the end of the payload or the padding in front of it. -/
def decodeToEnd (payload : Bytes) : Logged (List SampleDescription) :=
  if Payload.isPadding payload then return []
  else
    match _h : firstEntry payload with
    | .error error => Logged.fail error
    | .ok child => do
        let entry ← SampleDescription.ofChild child
        let others ← decodeToEnd child.rest
        return entry :: others
termination_by payload.length
decreasing_by exact Payload.length_rest_lt _h

section

variable {payload : Bytes} (hatom : ¬Payload.isPadding payload)

include hatom

theorem decodeToEnd_eq_fail {error : DecodeError} (h : firstEntry payload = .error error) :
    decodeToEnd payload = Logged.fail error := by
  rw [decodeToEnd, if_neg hatom]
  split
  · rename_i hfirst
    rw [Except.error.inj (h.symm.trans hfirst)]
  · rename_i hfirst
    cases h.symm.trans hfirst

theorem decodeToEnd_eq_bind {child : Child} (h : firstEntry payload = .ok child) :
    decodeToEnd payload = (do
      let entry ← SampleDescription.ofChild child
      let others ← decodeToEnd child.rest
      return entry :: others) := by
  rw [decodeToEnd, if_neg hatom]
  split
  · rename_i hfirst
    cases h.symm.trans hfirst
  · rename_i hfirst
    rw [Except.ok.inj (h.symm.trans hfirst)]

end

def decode (header : Header) (payload : Bytes) : Logged SampleTable := do
  let ((version, flags, declared), table) ←
    Logged.ofExcept (Payload.fixedFields Tag.sampleTable fixedFields payload)
  let room := table.length / Header.width
  if room < declared.toNat then
    Logged.fail (.layout (.entryTableOverflow declared.toNat room))
  else
    let (asDeclared, rest) ← decodeEntries declared.toNat table
    let entries := asDeclared ++ (← decodeToEnd rest)
    if entries.length = declared.toNat then return { header, version, flags, entries }
    else Logged.fail (.layout (.entryCount declared.toNat entries.length))

end SampleTable

end MovieAtoms
