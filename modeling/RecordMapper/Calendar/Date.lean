/-!
# Dates

A date is a number of days counted from 1970-01-01, in the proleptic Gregorian calendar and within
the supported years. Its year, month and day are found inside the cycle of 400 years, which is
taken to begin on the first of March, so that a leap day is the last day of its year.

The main statement is `dayNumber_civil`: year, month and day lead back to the same day.
-/

set_option autoImplicit false
set_option maxRecDepth 4096

namespace RecordMapper.Calendar

/-- Year, month from 1 and day from 1, not checked. -/
structure Civil where
  year : Int
  month : Nat
  day : Nat
deriving DecidableEq, Repr

def isLeapYear (year : Int) : Bool := year % 4 = 0 && (year % 100 ≠ 0 || year % 400 = 0)

def monthLength (year : Int) (month : Nat) : Nat :=
  if month = 2 then (if isLeapYear year then 29 else 28)
  else if month = 4 ∨ month = 6 ∨ month = 9 ∨ month = 11 then 30
  else 31

def minYear : Int := -262143
def maxYear : Int := 262142

def Civil.isValid (c : Civil) : Bool :=
  minYear ≤ c.year && c.year ≤ maxYear && 1 ≤ c.month && c.month ≤ 12 &&
    1 ≤ c.day && c.day ≤ monthLength c.year c.month

def cycleDays : Int := 146097

/-- Days from the first of March of the year 0 to 1970-01-01. -/
def epochDays : Int := 719468

/-- Days from the first of March to the first of the month that is `m` months later. -/
def daysBeforeMonth (m : Nat) : Nat := (153 * m + 2) / 5

def Civil.dayNumber (c : Civil) : Int :=
  let months : Nat := if c.month ≤ 2 then c.month + 9 else c.month - 3
  let year : Int := if c.month ≤ 2 then c.year - 1 else c.year
  let cycle := year / 400
  let inCycle := year % 400
  let dayOfYear : Int := daysBeforeMonth months + c.day - 1
  cycle * cycleDays + inCycle * 365 + inCycle / 4 - inCycle / 100 + dayOfYear - epochDays

def yearOfCycle (dayOfCycle : Nat) : Nat × Nat :=
  let century := min 3 (dayOfCycle / 36524)
  let dayOfCentury := dayOfCycle - century * 36524
  let quadrennium := dayOfCentury / 1461
  let dayOfQuadrennium := dayOfCentury - quadrennium * 1461
  let year := min 3 (dayOfQuadrennium / 365)
  (century * 100 + quadrennium * 4 + year, dayOfQuadrennium - year * 365)

/-- A day of a year taken apart: months since March and the day of the month, from 0. -/
def monthOfYear (dayOfYear : Nat) : Nat × Nat :=
  let months := (5 * dayOfYear + 2) / 153
  (months, dayOfYear - daysBeforeMonth months)

def civil (n : Int) : Civil :=
  let shifted := n + epochDays
  let (yearInCycle, dayOfYear) := yearOfCycle (shifted % cycleDays).toNat
  let (months, day) := monthOfYear dayOfYear
  let year : Int := shifted / cycleDays * 400 + yearInCycle
  if months < 10 then ⟨year, months + 3, day + 1⟩ else ⟨year + 1, months - 9, day + 1⟩

theorem yearOfCycle_bounds {d : Nat} (h : d < 146097) :
    (yearOfCycle d).1 < 400 ∧ (yearOfCycle d).2 < 366 ∧
      (yearOfCycle d).1 * 365 + (yearOfCycle d).1 / 4 - (yearOfCycle d).1 / 100
        + (yearOfCycle d).2 = d := by
  simp only [yearOfCycle]
  generalize hc : min 3 (d / 36524) = century
  have hc3 : century ≤ 3 := by omega
  have hc0 : century * 36524 ≤ d := by omega
  have hc1 : d - century * 36524 < 36525 := by omega
  generalize hr : d - century * 36524 = r at *
  generalize hq : r / 1461 = quadrennium
  have hq24 : quadrennium ≤ 24 := by omega
  have hq0 : quadrennium * 1461 ≤ r := by omega
  have hq1 : r - quadrennium * 1461 < 1461 := by omega
  generalize hs : r - quadrennium * 1461 = s at *
  generalize hy : min 3 (s / 365) = year
  have hy3 : year ≤ 3 := by omega
  have hy0 : year * 365 ≤ s := by omega
  have h4 : (century * 100 + quadrennium * 4 + year) / 4 = century * 25 + quadrennium := by omega
  have h100 : (century * 100 + quadrennium * 4 + year) / 100 = century := by omega
  rw [h4, h100]
  omega

theorem monthOfYear_bounds {d : Nat} (h : d < 366) :
    (monthOfYear d).1 < 12 ∧ daysBeforeMonth (monthOfYear d).1 + (monthOfYear d).2 = d := by
  simp only [monthOfYear, daysBeforeMonth]
  omega

@[simp] theorem dayNumber_civil (n : Int) : (civil n).dayNumber = n := by
  have hpos : 0 ≤ (n + epochDays) % cycleDays := by unfold cycleDays; omega
  have hlt : (n + epochDays) % cycleDays < 146097 := by unfold cycleDays; omega
  have hsum : (n + epochDays) / cycleDays * cycleDays + (n + epochDays) % cycleDays =
      n + epochDays := by unfold cycleDays; omega
  obtain ⟨d, hd⟩ := Int.eq_ofNat_of_zero_le hpos
  have hd146 : d < 146097 := by omega
  obtain ⟨hyear, hday, hback⟩ := yearOfCycle_bounds hd146
  obtain ⟨hmonth, hdays⟩ := monthOfYear_bounds hday
  simp only [civil, hd, Int.toNat_natCast] at hsum ⊢
  generalize (n + epochDays) / cycleDays = cycle at *
  generalize (yearOfCycle d).1 = year at *
  generalize (yearOfCycle d).2 = dayOfYear at *
  generalize (monthOfYear dayOfYear).1 = months at *
  generalize (monthOfYear dayOfYear).2 = day at *
  simp only [cycleDays, epochDays] at hsum
  have hcycle : (cycle * 400 + (year : Int)) / 400 = cycle := by omega
  have hrest : (cycle * 400 + (year : Int)) % 400 = year := by omega
  split <;> rename_i hm
  · have hlate : ¬ months + 3 ≤ 2 := by omega
    have hm3 : months + 3 - 3 = months := by omega
    simp only [Civil.dayNumber, hlate, if_false, hm3, hcycle, hrest, cycleDays, epochDays]
    omega
  · have hearly : months - 9 ≤ 2 := by omega
    have hm9 : months - 9 + 9 = months := by omega
    have hyear1 : cycle * 400 + (year : Int) + 1 - 1 = cycle * 400 + year := by omega
    simp only [Civil.dayNumber, hearly, if_true, hm9, hyear1, hcycle, hrest, cycleDays, epochDays]
    omega

structure Date where
  day : Int
  first_le : -96465292 ≤ day
  le_last : day ≤ 95026236
deriving DecidableEq

namespace Date

def ofDay? (day : Int) : Option Date :=
  if h : -96465292 ≤ day ∧ day ≤ 95026236 then some ⟨day, h.1, h.2⟩ else none

def civil (d : Date) : Civil := Calendar.civil d.day

def ofCivil? (c : Civil) : Option Date := if c.isValid then ofDay? c.dayNumber else none

def epoch : Date := ⟨0, by decide, by decide⟩

@[simp] theorem ofDay?_day (d : Date) : ofDay? d.day = some d := by
  simp [ofDay?, d.first_le, d.le_last]

end Date

end RecordMapper.Calendar
