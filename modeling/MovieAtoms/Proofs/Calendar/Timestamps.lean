import Mathlib.Algebra.Order.Ring.Int
import MovieAtoms.Proofs.Calendar.Counting
import MovieAtoms.Proofs.Text.Digits

/-!
# The dates of a movie, as instants and as texts

A date of a movie is turned into seconds and then milliseconds of 64 bits, into an instant, and into
the text of the day and time of this instant. Main statement: `isExact`, by which nothing is lost on
this way: the instant is as many seconds after the start of 1904 as the movie says, and so is the date
that is read from the text.
-/

namespace MovieAtoms

open Text

/-! ### Dates read from their text -/

namespace CivilTime

/-- The number in the first places of a text that goes on with `behind`, and what follows. -/
def readPlaces? (width : Nat) (behind : String) (text : List Char) : Option (Nat × List Char) := do
  let number ← numberOf? 10 (text.take width)
  let rest := text.drop width
  if rest.take behind.length = behind.toList then some (number, rest.drop behind.length) else none

/-- The date and time of a text such as `2024-01-31 23:59:59 UTC`. -/
def ofText? (text : String) : Option CivilTime := do
  let (year, rest) ← readPlaces? 4 "-" text.toList
  let (month, rest) ← readPlaces? 2 "-" rest
  let (day, rest) ← readPlaces? 2 " " rest
  let (hour, rest) ← readPlaces? 2 ":" rest
  let (minute, rest) ← readPlaces? 2 ":" rest
  let (second, rest) ← readPlaces? 2 " UTC" rest
  if rest.isEmpty then some ⟨year, month, day, hour, minute, second⟩ else none

theorem readPlaces?_padded {width number : Nat} (hwidth : 0 < width) (h : number < 10 ^ width)
    (behind : String) (rest : List Char) :
    readPlaces? width behind (Decimal.padded width number ++ (behind.toList ++ rest)) =
      some (number, rest) := by
  have hdigits : (Nat.toDigits 10 number).length ≤ width :=
    (Nat.length_toDigits_le_iff (by decide) hwidth).mpr h
  have hlength : (Decimal.padded width number).length = width := by
    rw [Decimal.padded, length_padLeft, Nat.max_eq_left hdigits]
  have hnumber : numberOf? 10 (Decimal.padded width number) = some number :=
    numberOf?_padLeft (by decide) (by decide) width number
  have hbehind : behind.toList.length = behind.length := String.length_toList
  rw [readPlaces?, List.take_left' hlength, List.drop_left' hlength, hnumber]
  simp [List.take_left' hbehind, List.drop_left' hbehind]

/-- The text of a date of the years 0 to 9999 tells the date. -/
theorem ofText?_text {date : CivilTime} (hvalid : date.IsValid)
    (hyear : 0 ≤ date.year ∧ date.year ≤ 9999) : ofText? date.text = some date := by
  obtain ⟨year, month, day, hour, minute, second⟩ := date
  obtain ⟨hmonth, hday, hhour, hminute, hsecond⟩ := hvalid
  have hlength := (Calendar.monthLength_bounds year month).2
  dsimp only at *
  have htext : (text ⟨year, month, day, hour, minute, second⟩).toList =
      Decimal.padded 4 year.toNat ++ ("-".toList ++
        (Decimal.padded 2 month ++ ("-".toList ++
        (Decimal.padded 2 day ++ (" ".toList ++
        (Decimal.padded 2 hour ++ (":".toList ++
        (Decimal.padded 2 minute ++ (":".toList ++
        (Decimal.padded 2 second ++ (" UTC".toList ++ []))))))))))) := by
    simp [text, dateText, clockText, yearText, hyear]
  simp (disch := omega) only [ofText?, htext, readPlaces?_padded, Option.bind_eq_bind,
    Option.bind_some, Int.toNat_of_nonneg]
  rfl

/-! ### Instants -/

/-- Milliseconds from the start of 1970. -/
def unixMilliseconds (date : CivilTime) : Int :=
  (date.secondCount - (midnight 1970 1 1).secondCount) * 1000

/-- The start of 1904, from which movies count. -/
def movieStart : CivilTime := midnight 1904 1 1

theorem isValid_movieStart : movieStart.IsValid := isValid_midnight (by decide) (by decide)

end CivilTime

open CivilTime

/-- The instants of the years 1 to 9999 are found, each for its milliseconds from 1970. -/
def Instant.Found (instant? : Int64 → Option Instant) : Prop :=
  ∀ count : Int64, (midnight 1 1 1).unixMilliseconds ≤ count.toInt →
    count.toInt < (midnight 10000 1 1).unixMilliseconds → instant? count = some ⟨count⟩

theorem Instant.found_ofUnixMilliseconds? : Instant.Found Instant.ofUnixMilliseconds? := by
  intro count hfirst hlast
  have hstart : (midnight 1 1 1).unixMilliseconds = -62135596800000 := by
    decide
  have hend : (midnight 10000 1 1).unixMilliseconds = 253402300800000 := by
    decide
  rw [Instant.ofUnixMilliseconds?, if_pos]
  omega

namespace Timestamp

/-- A timestamp stands for the instant that it should, and is shown as such. -/
structure IsExact (instant? : Int64 → Option Instant) (time : Timestamp) : Prop where
  /-- The difference does not leave 64 bits. -/
  seconds : time.secondsFromUnixStart.toInt = time.seconds.toNat - unixEpoch.toInt
  /-- The product does not leave 64 bits. -/
  milliseconds : time.millisecondsFromUnixStart.toInt = time.secondsFromUnixStart.toInt * 1000
  /-- The instant is found, so no other stands in. -/
  found : instant? time.millisecondsFromUnixStart = some (time.instantBy instant?)
  instant : (time.instantBy instant?).unixMilliseconds.toInt =
    movieStart.unixMilliseconds + 1000 * time.seconds.toNat
  later : ∀ other : Timestamp, time.seconds < other.seconds →
    (time.instantBy instant?).unixMilliseconds < (other.instantBy instant?).unixMilliseconds
  /-- The text shows what a clock shows that was set going at the start of 1904. -/
  shown : ofText? (time.textBy instant?) = some (CivilTime.next^[time.seconds.toNat] movieStart)
  /-- The text shows the one date of the calendar that is so many seconds after the start of 1904. -/
  counted : ∀ date : CivilTime, ofText? (time.textBy instant?) = some date ↔
    date.IsValid ∧ date.secondCount - movieStart.secondCount = time.seconds.toNat

theorem toInt_unixEpoch : unixEpoch.toInt = 2082844800 := by
  decide

theorem toInt_secondsFromUnixStart (time : Timestamp) :
    time.secondsFromUnixStart.toInt = time.seconds.toNat - unixEpoch.toInt := by
  have hless := time.seconds.toNat_lt
  have hepoch := toInt_unixEpoch
  have hwide : time.seconds.toUInt64.toInt64.toInt = time.seconds.toNat := by
    have hword : time.seconds.toUInt64.toInt64.toInt =
        (time.seconds.toUInt64.toNat : Int).bmod (2 ^ 64) := BitVec.toInt_eq_toNat_bmod _
    rw [hword, UInt32.toNat_toUInt64]
    apply Int.bmod_eq_of_le
    · omega
    · omega
  rw [secondsFromUnixStart, Int64.toInt_sub, hwide]
  apply Int.bmod_eq_of_le
  · omega
  · omega

theorem toInt_millisecondsFromUnixStart (time : Timestamp) :
    time.millisecondsFromUnixStart.toInt = time.secondsFromUnixStart.toInt * 1000 := by
  have hless := time.seconds.toNat_lt
  have hseconds := time.toInt_secondsFromUnixStart
  have hepoch := toInt_unixEpoch
  have hthousand : (1000 : Int64).toInt = 1000 := by
    decide
  rw [millisecondsFromUnixStart, Int64.toInt_mul, hthousand]
  apply Int.bmod_eq_of_le
  · omega
  · omega

theorem toInt_milliseconds_eq (time : Timestamp) :
    time.millisecondsFromUnixStart.toInt =
      movieStart.unixMilliseconds + 1000 * time.seconds.toNat := by
  have hstart : movieStart.unixMilliseconds = -(unixEpoch.toInt * 1000) := by
    decide
  rw [toInt_millisecondsFromUnixStart, toInt_secondsFromUnixStart, hstart]
  omega

variable {instant? : Int64 → Option Instant}

theorem instantBy_eq (h : Instant.Found instant?) (time : Timestamp) :
    instant? time.millisecondsFromUnixStart = some ⟨time.millisecondsFromUnixStart⟩ ∧
      time.instantBy instant? = ⟨time.millisecondsFromUnixStart⟩ := by
  have hless := time.seconds.toNat_lt
  have hcount := time.toInt_milliseconds_eq
  have hstart : (midnight 1 1 1).unixMilliseconds ≤ movieStart.unixMilliseconds := by
    decide
  have hend : movieStart.unixMilliseconds + 1000 * 2 ^ 32 < (midnight 10000 1 1).unixMilliseconds := by
    decide
  have hfound := h time.millisecondsFromUnixStart (by omega) (by omega)
  exact ⟨hfound, by rw [instantBy, hfound, Option.getD_some]⟩

/-- The date of a timestamp is the one that the clock shows after so many seconds. -/
theorem civil_eq (time : Timestamp) :
    (Instant.mk time.millisecondsFromUnixStart).civil =
      CivilTime.next^[time.seconds.toNat] movieStart := by
  have hepoch : movieStart.secondCount = (midnight 1970 1 1).secondCount - unixEpoch.toInt := by
    decide
  obtain ⟨hclock, hclockCount⟩ := isValid_movieStart.iterate_next time.seconds.toNat
  obtain ⟨hvalid, hcount⟩ := ofUnixSeconds_spec time.secondsFromUnixStart.toInt
  have hcivil : (Instant.mk time.millisecondsFromUnixStart).civil =
      ofUnixSeconds time.secondsFromUnixStart.toInt := by
    rw [Instant.civil, toInt_millisecondsFromUnixStart, Int.mul_ediv_cancel _ (by decide)]
  rw [hcivil]
  -- both are dates of the calendar, so it is enough that they have one count
  apply eq_of_secondCount_eq hvalid hclock
  rw [hcount, hclockCount, toInt_secondsFromUnixStart, hepoch]
  omega

/-- Timestamps end in 2040, so their years have four digits. -/
theorem ofText?_textBy (h : Instant.Found instant?) (time : Timestamp) :
    ofText? (time.textBy instant?) = some (CivilTime.next^[time.seconds.toNat] movieStart) := by
  obtain ⟨hvalid, hcount⟩ := isValid_movieStart.iterate_next time.seconds.toNat
  have hless := time.seconds.toNat_lt
  have hfirst := hvalid.secondCount_lt_midnight_iff 0
  have hlast := hvalid.secondCount_lt_midnight_iff 10000
  have hstart : (midnight 0 1 1).secondCount ≤ movieStart.secondCount := by
    decide
  have hend : movieStart.secondCount + 2 ^ 32 < (midnight 10000 1 1).secondCount := by
    decide
  rw [textBy, (instantBy_eq h time).2, civil_eq]
  apply ofText?_text hvalid
  omega

/-- The text of a timestamp tells the date that the clock shows after so many seconds. -/
theorem ofText?_text (time : Timestamp) :
    ofText? time.text = some (CivilTime.next^[time.seconds.toNat] movieStart) :=
  ofText?_textBy Instant.found_ofUnixMilliseconds? time

/-- Every timestamp is exact, whatever finds the instants of the years 1 to 9999. -/
theorem isExact (h : Instant.Found instant?) (time : Timestamp) : time.IsExact instant? := by
  obtain ⟨hfound, hinstant⟩ := instantBy_eq h time
  constructor
  case seconds => exact time.toInt_secondsFromUnixStart
  case milliseconds => exact time.toInt_millisecondsFromUnixStart
  case found => rw [hfound, hinstant]
  case instant => rw [hinstant, toInt_milliseconds_eq]
  case later =>
    intro other hless
    have hseconds := UInt32.lt_iff_toNat_lt.mp hless
    rw [hinstant, (instantBy_eq h other).2, Int64.lt_iff_toInt_lt, toInt_milliseconds_eq,
      toInt_milliseconds_eq]
    omega
  case shown => exact ofText?_textBy h time
  case counted =>
    obtain ⟨hvalid, hcount⟩ := isValid_movieStart.iterate_next time.seconds.toNat
    intro date
    rw [ofText?_textBy h, Option.some.injEq]
    constructor
    · rintro rfl
      exact ⟨hvalid, by omega⟩
    · rintro ⟨hdate, hseconds⟩
      exact eq_of_secondCount_eq hvalid hdate (by omega)

/-- A timestamp with the highest bit set is in 2016. -/
theorem isExact_highBit :
    Instant.Found Instant.ofUnixMilliseconds? ∧
      (Timestamp.mk 0xD40B8C00).IsExact Instant.ofUnixMilliseconds? ∧
      ofText? (Timestamp.mk 0xD40B8C00).text = some ⟨2016, 9, 24, 1, 48, 48⟩ := by
  have hexact := isExact Instant.found_ofUnixMilliseconds? ⟨0xD40B8C00⟩
  refine ⟨Instant.found_ofUnixMilliseconds?, hexact, (hexact.counted _).mpr ⟨?_, by decide⟩⟩
  exact ⟨by decide, by decide, by decide, by decide, by decide⟩

end Timestamp

end MovieAtoms
