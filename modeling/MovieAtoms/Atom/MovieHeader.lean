import MovieAtoms.Calendar
import MovieAtoms.Payload

/-!
# Movie headers

The header of a movie tells when it was made, how time is counted in it, and how it is played by
default. All its fields have fixed places.
-/

namespace MovieAtoms

/-- A transformation of the picture, row by row. -/
structure Matrix where
  a : Int32
  b : Int32
  u : Int32
  c : Int32
  d : Int32
  v : Int32
  x : Int32
  y : Int32
  w : Int32
deriving DecidableEq, Repr

namespace Matrix

def toList (matrix : Matrix) : List Int32 :=
  [matrix.a, matrix.b, matrix.u, matrix.c, matrix.d, matrix.v, matrix.x, matrix.y, matrix.w]

def field : Field Matrix := do
  return {
    a := ← Field.i32
    b := ← Field.i32
    u := ← Field.i32
    c := ← Field.i32
    d := ← Field.i32
    v := ← Field.i32
    x := ← Field.i32
    y := ← Field.i32
    w := ← Field.i32 }

theorem field_eq_some {matrix : Matrix} {bytes rest : Bytes} :
    field bytes = some (matrix, rest) ↔ bytes = matrix.toList.flatMap Wire.ofInt32 ++ rest := by
  obtain ⟨a, b, u, c, d, v, x, y, w⟩ := matrix
  simp only [field, Field.bind_eq_some_inner, Field.pure_eq_some, Field.i32_eq_some, mk.injEq,
    and_assoc, exists_and_left, exists_eq_left, toList, List.flatMap_cons, List.flatMap_nil,
    List.append_assoc, List.nil_append]

end Matrix

/-- The timing of a movie and the defaults of its presentation. -/
structure MovieHeader where
  header : Header
  version : UInt8
  flags : Block 3
  creationTime : Timestamp
  modificationTime : Timestamp
  /-- The units of time in a second. -/
  timeScale : UInt32
  /-- In units of time. -/
  duration : UInt32
  /-- In units of 1/65536. -/
  rate : UInt32
  /-- In units of 1/256. -/
  volume : UInt16
  reserved : Block 10
  matrix : Matrix
  previewTime : UInt32
  previewDuration : UInt32
  posterTime : UInt32
  selectionTime : UInt32
  selectionDuration : UInt32
  currentTime : UInt32
  nextTrackId : UInt32
deriving DecidableEq, Repr

namespace MovieHeader

def timestamp : Field Timestamp := Timestamp.mk <$> Field.u32

def fields (header : Header) : Field MovieHeader := do
  return {
    header
    version := ← Field.u8
    flags := ← Field.block 3
    creationTime := ← timestamp
    modificationTime := ← timestamp
    timeScale := ← Field.u32
    duration := ← Field.u32
    rate := ← Field.u32
    volume := ← Field.u16
    reserved := ← Field.block 10
    matrix := ← Matrix.field
    previewTime := ← Field.u32
    previewDuration := ← Field.u32
    posterTime := ← Field.u32
    selectionTime := ← Field.u32
    selectionDuration := ← Field.u32
    currentTime := ← Field.u32
    nextTrackId := ← Field.u32 }

/-- Bytes after the last field are left unread. -/
def decode (header : Header) (payload : Bytes) : Except DecodeError MovieHeader :=
  (Payload.fixedFields Tag.movieHeader (fields header) payload).map Prod.fst

def payload (movie : MovieHeader) : Bytes :=
  Wire.ofUInt8 movie.version ++ movie.flags.bytes ++
    Wire.ofUInt32 movie.creationTime.seconds ++ Wire.ofUInt32 movie.modificationTime.seconds ++
    Wire.ofUInt32 movie.timeScale ++ Wire.ofUInt32 movie.duration ++
    Wire.ofUInt32 movie.rate ++ Wire.ofUInt16 movie.volume ++ movie.reserved.bytes ++
    movie.matrix.toList.flatMap Wire.ofInt32 ++
    Wire.ofUInt32 movie.previewTime ++ Wire.ofUInt32 movie.previewDuration ++
    Wire.ofUInt32 movie.posterTime ++
    Wire.ofUInt32 movie.selectionTime ++ Wire.ofUInt32 movie.selectionDuration ++
    Wire.ofUInt32 movie.currentTime ++ Wire.ofUInt32 movie.nextTrackId

theorem length_payload (movie : MovieHeader) : movie.payload.length = 100 := by
  simp [payload, Wire.ofUInt8, Wire.ofUInt16, Wire.ofUInt32, Wire.ofInt32, Matrix.toList,
    movie.flags.length_bytes, movie.reserved.length_bytes]

theorem timestamp_eq_some {time : Timestamp} {bytes rest : Bytes} :
    timestamp bytes = some (time, rest) ↔ bytes = Wire.ofUInt32 time.seconds ++ rest := by
  obtain ⟨seconds⟩ := time
  simp only [timestamp, Field.map_eq_some, Field.u32_eq_some, Timestamp.mk.injEq]
  constructor
  · rintro ⟨_, rfl, rfl⟩
    rfl
  · rintro rfl
    exact ⟨_, rfl, rfl⟩

theorem fields_eq_some {header : Header} {movie : MovieHeader} {bytes rest : Bytes} :
    fields header bytes = some (movie, rest) ↔
      movie.header = header ∧ bytes = movie.payload ++ rest := by
  obtain ⟨own, version, flags, creation, modification, timeScale, duration, rate, volume, reserved,
    matrix, previewTime, previewDuration, posterTime, selectionTime, selectionDuration,
    currentTime, nextTrackId⟩ := movie
  simp only [fields, Field.bind_eq_some_inner, Field.pure_eq_some, Field.u8_eq_some,
    Field.block_eq_some, timestamp_eq_some, Field.u32_eq_some, Field.u16_eq_some,
    Matrix.field_eq_some, mk.injEq, and_assoc, exists_and_left, exists_eq_left, payload,
    List.append_assoc]
  exact ⟨fun ⟨hheader, hbytes⟩ => ⟨hheader.symm, hbytes⟩,
    fun ⟨hheader, hbytes⟩ => ⟨hheader.symm, hbytes⟩⟩

/-- Decoding accepts exactly the payloads that begin with the written form. -/
theorem decode_eq_ok {header : Header} {bytes : Bytes} {movie : MovieHeader} :
    decode header bytes = .ok movie ↔
      movie.header = header ∧ ∃ rest, bytes = movie.payload ++ rest := by
  simp only [decode, DecodeError.map_eq_ok]
  constructor
  · rintro ⟨⟨first, rest⟩, hfields, rfl⟩
    obtain ⟨hheader, hbytes⟩ := fields_eq_some.mp (Payload.fixedFields_eq_ok.mp hfields)
    exact ⟨hheader, rest, hbytes⟩
  · rintro ⟨hheader, rest, hbytes⟩
    have hfields := fields_eq_some.mpr ⟨hheader, hbytes⟩
    exact ⟨(movie, rest), Payload.fixedFields_eq_ok.mpr hfields, rfl⟩

/-- Whole seconds, unless there are no units of time in a second. -/
def durationSeconds? (movie : MovieHeader) : Option UInt32 :=
  if movie.timeScale = 0 then none else some (movie.duration / movie.timeScale)

/-- Frames per second, taking a thousand units of time for a frame. -/
def framesPerSecond (movie : MovieHeader) : Float := movie.timeScale.toFloat / 1000

def preferredRate (movie : MovieHeader) : Float := movie.rate.toFloat / 65536

def preferredVolume (movie : MovieHeader) : Float := movie.volume.toFloat / 256

end MovieHeader

end MovieAtoms
