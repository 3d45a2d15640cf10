import Mathlib.Algebra.Order.Ring.Int
import Mathlib.Logic.Function.Iterate
import MovieAtoms.Calendar

/-!
# Seconds counted along the calendar

The calendar by its rules: leap years, the lengths of months, the second that follows another. A date
and time has a count of seconds, and the clock takes this count from one second to the next. Main
statement: `ofUnixSeconds_spec`, by which the date that is found for a count is a date of the calendar
and has this count, before and after 1970.
-/

namespace MovieAtoms

namespace Calendar

/-! ### Years -/

/-- Every fourth year is a leap year, but of those at the turn of a century only every fourth. -/
def IsLeapYear (year : Int) : Prop := 4 ∣ year ∧ (100 ∣ year → 400 ∣ year)

instance (year : Int) : Decidable (IsLeapYear year) :=
  inferInstanceAs (Decidable (_ ∧ (_ → _)))

/-- The days before a year, from the start of the year 1. -/
def daysBefore (year : Int) : Int :=
  365 * (year - 1) + (year - 1) / 4 - (year - 1) / 100 + (year - 1) / 400

theorem isLeap_iff (cycle : Int) (year : Nat) :
    isLeap year = true ↔ IsLeapYear (400 * cycle + year) := by
  simp only [isLeap, IsLeapYear, Bool.and_eq_true, Bool.or_eq_true, decide_eq_true_eq]
  omega

theorem daysBefore_succ (year : Int) :
    daysBefore (year + 1) = daysBefore year + if IsLeapYear year then 366 else 365 := by
  by_cases hleap : IsLeapYear year
  · rw [if_pos hleap]
    simp only [IsLeapYear, daysBefore] at *
    omega
  · rw [if_neg hleap]
    simp only [IsLeapYear, daysBefore] at *
    omega

theorem daysBefore_add_cycle (cycle year : Int) :
    daysBefore (400 * cycle + year) = cycleLength * cycle + daysBefore year := by
  unfold daysBefore cycleLength
  omega

theorem daysBefore_succ_eq_yearLength (year : Nat) :
    daysBefore (year + 1) = daysBefore year + yearLength year := by
  have hleap := isLeap_iff 0 year
  rw [Int.mul_zero, Int.zero_add] at hleap
  rw [daysBefore_succ]
  simp only [yearLength, hleap]
  split <;> rfl

/-- Taking whole years off the front keeps the day that is counted. -/
theorem splitYears_spec (year day : Nat) :
    daysBefore (splitYears year day).1 + (splitYears year day).2 = daysBefore year + day ∧
      (splitYears year day).2 < yearLength (splitYears year day).1 := by
  induction year, day using splitYears.induct with
  | case1 year day hwithin =>
      rw [splitYears, if_pos hwithin]
      exact ⟨rfl, hwithin⟩
  | case2 year day hbeyond ih =>
      rw [splitYears, if_neg hbeyond]
      obtain ⟨hcount, hwithin⟩ := ih
      have hnext := daysBefore_succ_eq_yearLength year
      push_cast at hcount
      exact ⟨by omega, hwithin⟩

/-! ### Months -/

/-- Thirty days have April, June, September and November. -/
def monthLength (year : Int) (month : Nat) : Nat :=
  if month = 2 then if IsLeapYear year then 29 else 28
  else if month ∈ [4, 6, 9, 11] then 30 else 31

theorem monthLength_bounds (year : Int) (month : Nat) :
    1 ≤ monthLength year month ∧ monthLength year month ≤ 31 := by
  unfold monthLength
  split
  · split <;> decide
  · split <;> decide

/-- The days of a year before a month, where months count from one. -/
def daysBeforeMonth (year : Int) (month : Nat) : Nat :=
  ((List.range (month - 1)).map fun earlier => monthLength year (earlier + 1)).sum

theorem monthLengths_eq (cycle : Int) (year : Nat) :
    monthLengths year =
      (List.range 12).map fun earlier => monthLength (400 * cycle + year) (earlier + 1) := by
  simp only [monthLengths, isLeap_iff cycle]
  rfl

theorem daysBeforeMonth_succ (year : Int) {month : Nat} (h : 1 ≤ month) :
    daysBeforeMonth year (month + 1) = daysBeforeMonth year month + monthLength year month := by
  obtain ⟨earlier, rfl⟩ := Nat.exists_eq_add_of_le' h
  simp [daysBeforeMonth, List.range_succ]

/-- The months follow one another. -/
theorem daysBeforeMonth_add_le {year : Int} {month later : Nat} (hmonth : 1 ≤ month)
    (h : month < later) :
    (daysBeforeMonth year month : Int) + monthLength year month ≤ daysBeforeMonth year later := by
  induction later, h using Nat.le_induction with
  | base => rw [daysBeforeMonth_succ _ hmonth, Nat.cast_add]
  | succ later h ih =>
      rw [daysBeforeMonth_succ _ (by omega)]
      omega

/-- The twelve months make up the year. -/
theorem daysBefore_succ_eq_months (year : Int) :
    daysBefore (year + 1) = daysBefore year + daysBeforeMonth year 13 := by
  rw [daysBefore_succ]
  by_cases hleap : IsLeapYear year
  · simp [daysBeforeMonth, monthLength, hleap, List.range_succ]
  · simp [daysBeforeMonth, monthLength, hleap, List.range_succ]

/-- The years follow one another. -/
theorem daysBefore_add_le {year later : Int} (h : year < later) :
    daysBefore year + daysBeforeMonth year 13 ≤ daysBefore later := by
  rw [← daysBefore_succ_eq_months]
  unfold daysBefore
  omega

/-- Taking whole months off the front keeps the day, and stops within a month. -/
theorem splitMonths_spec (first : Nat) {day : Nat} {lengths : List Nat} (h : day < lengths.sum) :
    ∃ passed rest, splitMonths first lengths day = (first + passed, rest) ∧
      passed < lengths.length ∧ (lengths.take passed).sum + rest = day ∧
        rest < lengths.getD passed 0 := by
  induction lengths generalizing first day with
  | nil => exact absurd h (Nat.not_lt_zero _)
  | cons length lengths ih =>
      rw [splitMonths]
      split
      · rename_i hwithin
        exact ⟨0, day, rfl, Nat.zero_lt_succ _, Nat.zero_add _, hwithin⟩
      · rename_i hbeyond
        rw [List.sum_cons] at h
        have hrest : day - length < lengths.sum := by
          omega
        obtain ⟨passed, rest, hsplit, hpassed, hcount, hwithin⟩ := ih (first + 1) hrest
        refine ⟨passed + 1, rest, ?_, ?_, ?_, ?_⟩
        · rw [hsplit, Nat.add_assoc, Nat.add_comm 1]
        · rw [List.length_cons]
          omega
        · rw [List.take_succ_cons, List.sum_cons]
          omega
        · exact hwithin

/-- The month that is found for a day of a year. -/
theorem splitMonths_monthLengths (cycle : Int) {year day : Nat} (h : day < yearLength year) :
    ∃ month rest, splitMonths 1 (monthLengths year) day = (month, rest) ∧
      1 ≤ month ∧ month ≤ 12 ∧ daysBeforeMonth (400 * cycle + year) month + rest = day ∧
        rest < monthLength (400 * cycle + year) month := by
  have hsum : day < (monthLengths year).sum := by
    rw [← sum_monthLengths] at h
    exact h
  obtain ⟨passed, rest, hsplit, hpassed, hcount, hwithin⟩ := splitMonths_spec 1 hsum
  have hpassed' : passed < 12 := hpassed
  refine ⟨1 + passed, rest, hsplit, by omega, by omega, ?_, ?_⟩
  · rw [monthLengths_eq cycle, ← List.map_take, List.take_range, Nat.min_eq_left (by omega)] at hcount
    rwa [daysBeforeMonth, Nat.add_sub_cancel_left]
  · rw [monthLengths_eq cycle] at hwithin
    simpa [hpassed', Nat.add_comm] using hwithin

/-! ### Dates -/

/-- The date of a day is a date of the calendar, at the same distance from the start of the year 0. -/
theorem dateOfDay_spec (count : Int) :
    ∃ year month day, dateOfDay count = (year, month, day) ∧ (1 ≤ month ∧ month ≤ 12) ∧
      (1 ≤ day ∧ day ≤ monthLength year month) ∧
        daysBefore year + (daysBeforeMonth year month + (day - 1 : Int)) = daysBefore 0 + count := by
  let cycle := count / cycleLength
  obtain ⟨hyears, hwithin⟩ := splitYears_spec 0 (count % cycleLength).toNat
  generalize hsplit : splitYears 0 (count % cycleLength).toNat = split at hyears hwithin
  obtain ⟨year, dayOfYear⟩ := split
  obtain ⟨month, rest, hmonths, hone, htwelve, hmonth, hday⟩ :=
    splitMonths_monthLengths cycle hwithin
  refine ⟨400 * cycle + year, month, rest + 1, ?_, ⟨hone, htwelve⟩, ⟨Nat.le_add_left _ _, hday⟩, ?_⟩
  · simp only [dateOfDay, hsplit, hmonths]
    rfl
  · have hcycle : cycleLength * cycle + count % cycleLength = count := Int.mul_ediv_add_emod _ _
    have hnonneg : 0 ≤ count % cycleLength := Int.emod_nonneg _ (by decide)
    rw [Int.toNat_of_nonneg hnonneg, Nat.cast_zero] at hyears
    rw [daysBefore_add_cycle]
    dsimp only at hyears hmonth
    omega

end Calendar

/-! ### Dates and times -/

namespace CivilTime

open Calendar

/-- The dates and times that there are. -/
structure IsValid (time : CivilTime) : Prop where
  month : 1 ≤ time.month ∧ time.month ≤ 12
  day : 1 ≤ time.day ∧ time.day ≤ monthLength time.year time.month
  hour : time.hour < 24
  minute : time.minute < 60
  second : time.second < 60

/-- The place of the day in its year, counted from zero. -/
def dayOfYear (time : CivilTime) : Int := daysBeforeMonth time.year time.month + (time.day - 1 : Int)

/-- The days from the start of the year 1. -/
def dayCount (time : CivilTime) : Int := daysBefore time.year + time.dayOfYear

def secondOfDay (time : CivilTime) : Nat := (time.hour * 60 + time.minute) * 60 + time.second

/-- The seconds from the start of the year 1. -/
def secondCount (time : CivilTime) : Int := time.dayCount * (24 * 60 * 60) + time.secondOfDay

theorem IsValid.dayOfYear_bounds {time : CivilTime} (h : time.IsValid) :
    0 ≤ time.dayOfYear ∧ time.dayOfYear < daysBeforeMonth time.year 13 := by
  have hmonth : (daysBeforeMonth time.year time.month : Int) + monthLength time.year time.month ≤
      daysBeforeMonth time.year 13 := daysBeforeMonth_add_le h.month.1 (Nat.lt_succ_of_le h.month.2)
  have hday := h.day
  unfold dayOfYear
  omega

theorem IsValid.secondOfDay_lt {time : CivilTime} (h : time.IsValid) :
    time.secondOfDay < 24 * 60 * 60 := by
  obtain ⟨-, -, hhour, hminute, hsecond⟩ := h
  unfold secondOfDay
  omega

/-- The start of a day. -/
def midnight (year : Int) (month day : Nat) : CivilTime := ⟨year, month, day, 0, 0, 0⟩

theorem isValid_midnight {year : Int} {month day : Nat} (hmonth : 1 ≤ month ∧ month ≤ 12)
    (hday : 1 ≤ day ∧ day ≤ monthLength year month) : (midnight year month day).IsValid :=
  ⟨hmonth, hday, Nat.zero_lt_succ _, Nat.zero_lt_succ _, Nat.zero_lt_succ _⟩

theorem secondCount_midnight (year : Int) :
    (midnight year 1 1).secondCount = daysBefore year * (24 * 60 * 60) := by
  have hstart : (midnight year 1 1).dayOfYear = 0 := rfl
  have hclock : (midnight year 1 1).secondOfDay = 0 := rfl
  rw [secondCount, dayCount, hstart, hclock, Int.add_zero, Nat.cast_zero, Int.add_zero]
  rfl

/-! ### The clock -/

/-- The start of the day that follows. -/
def nextDay (time : CivilTime) : CivilTime :=
  if time.day < monthLength time.year time.month then
    midnight time.year time.month (time.day + 1)
  else if time.month < 12 then midnight time.year (time.month + 1) 1
  else midnight (time.year + 1) 1 1

/-- The second that follows. -/
def next (time : CivilTime) : CivilTime :=
  if time.second < 59 then { time with second := time.second + 1 }
  else if time.minute < 59 then { time with minute := time.minute + 1, second := 0 }
  else if time.hour < 23 then { time with hour := time.hour + 1, minute := 0, second := 0 }
  else time.nextDay

theorem IsValid.nextDay {time : CivilTime} (h : time.IsValid) :
    time.nextDay.IsValid ∧ time.nextDay.secondCount = (time.dayCount + 1) * (24 * 60 * 60) := by
  have hday := h.day
  have hfirst := fun year month => (monthLength_bounds year month).1
  unfold CivilTime.nextDay
  split
  · rename_i hwithin
    refine ⟨isValid_midnight h.month ⟨Nat.le_add_left _ _, hwithin⟩, ?_⟩
    simp only [secondCount, dayCount, dayOfYear, secondOfDay, midnight]
    omega
  split
  · rename_i hlast hwithin
    have hmonth := daysBeforeMonth_succ time.year h.month.1
    refine ⟨isValid_midnight ⟨Nat.le_add_left _ _, hwithin⟩ ⟨le_refl _, hfirst _ _⟩, ?_⟩
    simp only [secondCount, dayCount, dayOfYear, secondOfDay, midnight]
    omega
  · rename_i hlast hlate
    have htwelve : time.month = 12 := Nat.le_antisymm h.month.2 (Nat.not_lt.mp hlate)
    have hdecember : daysBeforeMonth time.year 13 =
        daysBeforeMonth time.year 12 + monthLength time.year 12 :=
      daysBeforeMonth_succ _ (by decide)
    have hyear := daysBefore_succ_eq_months time.year
    rw [htwelve] at hlast hday
    refine ⟨isValid_midnight (by decide) ⟨le_refl _, hfirst _ _⟩, ?_⟩
    rw [secondCount_midnight, dayCount, dayOfYear, htwelve]
    omega

/-- The clock stays within the calendar and takes the count of seconds forward by one. -/
theorem IsValid.next {time : CivilTime} (h : time.IsValid) :
    time.next.IsValid ∧ time.next.secondCount = time.secondCount + 1 := by
  obtain ⟨hnextDay, hcount⟩ := h.nextDay
  obtain ⟨hmonth, hday, hhour, hminute, hsecond⟩ := h
  unfold CivilTime.next
  split
  · rename_i hwithin
    refine ⟨⟨hmonth, hday, hhour, hminute, Nat.succ_lt_succ hwithin⟩, ?_⟩
    simp only [secondCount, dayCount, dayOfYear, secondOfDay]
    omega
  split
  · rename_i hwithin
    refine ⟨⟨hmonth, hday, hhour, Nat.succ_lt_succ hwithin, Nat.zero_lt_succ _⟩, ?_⟩
    simp only [secondCount, dayCount, dayOfYear, secondOfDay]
    omega
  split
  · rename_i hwithin
    refine ⟨⟨hmonth, hday, Nat.succ_lt_succ hwithin, Nat.zero_lt_succ _, Nat.zero_lt_succ _⟩, ?_⟩
    simp only [secondCount, dayCount, dayOfYear, secondOfDay]
    omega
  · -- the last second of a day: one more than all seconds before is a day
    refine ⟨hnextDay, ?_⟩
    rw [hcount, secondCount, secondOfDay]
    omega

/-- What a second preserves, so many seconds preserve. -/
theorem IsValid.iterate_next {time : CivilTime} (h : time.IsValid) (seconds : Nat) :
    (CivilTime.next^[seconds] time).IsValid ∧
      (CivilTime.next^[seconds] time).secondCount = time.secondCount + seconds := by
  induction seconds with
  | zero => exact ⟨h, (Int.add_zero _).symm⟩
  | succ seconds ih =>
      rw [Function.iterate_succ_apply']
      obtain ⟨hvalid, hcount⟩ := ih.1.next
      refine ⟨hvalid, ?_⟩
      rw [hcount, ih.2]
      omega

/-! ### No two dates have one count -/

/-- In pieces that follow one another, a place tells its piece and how far into it the place is. -/
theorem eq_of_within {ι : Type*} [LinearOrder ι] (start length : ι → Int) {i j : ι} {rest other : Int}
    (hij : i < j → start i + length i ≤ start j) (hji : j < i → start j + length j ≤ start i)
    (hrest : 0 ≤ rest ∧ rest < length i) (hother : 0 ≤ other ∧ other < length j)
    (h : start i + rest = start j + other) : i = j ∧ rest = other := by
  rcases lt_trichotomy i j with hlt | rfl | hlt
  · have := hij hlt
    omega
  · exact ⟨rfl, by omega⟩
  · have := hji hlt
    omega

theorem eq_of_dayCount_eq {time other : CivilTime} (h : time.IsValid) (hother : other.IsValid)
    (hcount : time.dayCount = other.dayCount) :
    time.year = other.year ∧ time.month = other.month ∧ time.day = other.day := by
  rw [dayCount, dayCount] at hcount
  obtain ⟨hyear, hrest⟩ := eq_of_within daysBefore (fun year => daysBeforeMonth year 13)
    daysBefore_add_le daysBefore_add_le h.dayOfYear_bounds hother.dayOfYear_bounds hcount
  have hday := h.day
  have hday' := hother.day
  rw [← hyear] at hday'
  rw [dayOfYear, dayOfYear, ← hyear] at hrest
  obtain ⟨hmonth, hplace⟩ := eq_of_within (fun month => (daysBeforeMonth time.year month : Int))
    (fun month => monthLength time.year month)
    (daysBeforeMonth_add_le h.month.1) (daysBeforeMonth_add_le hother.month.1)
    (by omega) (by omega) hrest
  exact ⟨hyear, hmonth, by omega⟩

theorem eq_of_secondCount_eq {time other : CivilTime} (h : time.IsValid) (hother : other.IsValid)
    (hcount : time.secondCount = other.secondCount) : time = other := by
  have hless := h.secondOfDay_lt
  have hless' := hother.secondOfDay_lt
  unfold secondCount at hcount
  have hdays : time.dayCount = other.dayCount := by
    omega
  have hseconds : time.secondOfDay = other.secondOfDay := by
    omega
  obtain ⟨hyear, hmonth, hday⟩ := eq_of_dayCount_eq h hother hdays
  obtain ⟨-, -, hhour, hminute, hsecond⟩ := h
  obtain ⟨-, -, hhour', hminute', hsecond'⟩ := hother
  obtain ⟨year, month, day, hour, minute, second⟩ := time
  obtain ⟨year', month', day', hour', minute', second'⟩ := other
  simp only [secondOfDay, mk.injEq] at *
  omega

/-- The counts of a year lie between those of its start and of the start of the year that follows. -/
theorem IsValid.secondCount_lt_midnight_iff {time : CivilTime} (h : time.IsValid) (year : Int) :
    time.secondCount < (midnight year 1 1).secondCount ↔ time.year < year := by
  have hclock := h.secondOfDay_lt
  have hday := h.dayOfYear_bounds
  rw [secondCount_midnight, secondCount, dayCount]
  constructor
  · intro hless
    by_contra hlate
    rcases Int.lt_or_eq_of_le (Int.not_lt.mp hlate) with hlt | rfl
    · have hyears := daysBefore_add_le hlt
      omega
    · omega
  · intro hless
    have hyears := daysBefore_add_le hless
    omega

/-! ### The date of a count -/

/-- The date of a count of seconds from 1970 is a date of the calendar and has this count. -/
theorem ofUnixSeconds_spec (seconds : Int) :
    (ofUnixSeconds seconds).IsValid ∧
      (ofUnixSeconds seconds).secondCount = (midnight 1970 1 1).secondCount + seconds := by
  obtain ⟨year, month, day, hdate, hmonth, hday, hcount⟩ :=
    dateOfDay_spec (seconds / secondsPerDay + unixDay)
  have hsplit : secondsPerDay * (seconds / secondsPerDay) + seconds % secondsPerDay = seconds :=
    Int.mul_ediv_add_emod _ _
  -- what is left of a count below zero is a time of day too
  have hnonneg : 0 ≤ seconds % secondsPerDay := Int.emod_nonneg _ (by decide)
  have hless : seconds % secondsPerDay < secondsPerDay := Int.emod_lt_of_pos _ (by decide)
  have htime := Int.toNat_of_nonneg hnonneg
  simp only [ofUnixSeconds, hdate]
  generalize (seconds % secondsPerDay).toNat = time at htime
  rw [← htime] at hsplit hless
  have hday' : time < 86400 := Int.ofNat_lt.mp hless
  constructor
  · exact ⟨hmonth, hday, (by omega : time / 3600 < 24), Nat.mod_lt _ (by decide),
      Nat.mod_lt _ (by decide)⟩
  · have hepoch : (midnight 1970 1 1).secondCount = 719162 * 86400 := by
      decide
    have hzero : daysBefore 0 = -366 := by
      decide
    rw [hepoch, secondCount, dayCount, dayOfYear, hcount, hzero]
    simp only [unixDay, secondsPerDay, secondOfDay] at *
    omega

end CivilTime

end MovieAtoms
