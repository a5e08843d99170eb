import Mathlib.Tactic.IntervalCases
import RecordMapper.Proofs.Calendar.Millisecond

/-!
# Year, month and day of a date

The year, month and day of a supported date make up a valid date of the calendar, so that they are
accepted when they are read, and denote the same day. The hard case is the leap day: inside the
cycle of 400 years it is the last day of a year that begins in March, and only years of 366 days
have it.
-/

set_option autoImplicit false

namespace RecordMapper.Calendar

/-- A year from March to February has a day of number 365 only if its February has 29 days. -/
theorem leap_of_yearOfCycle {d : Nat} (h : d < 146097) (hlast : (yearOfCycle d).2 = 365) :
    ((yearOfCycle d).1 + 1) % 4 = 0 ∧
      (((yearOfCycle d).1 + 1) % 100 ≠ 0 ∨ (yearOfCycle d).1 + 1 = 400) := by
  simp only [yearOfCycle] at hlast ⊢
  generalize hcentury : min 3 (d / 36524) = century at *
  generalize hrest : d - century * 36524 = rest at *
  generalize hquadrennium : rest / 1461 = quadrennium at *
  generalize hday : rest - quadrennium * 1461 = day at *
  generalize hyear : min 3 (day / 365) = year at *
  have hthree : century ≤ 3 := by omega
  have hfull : century < 3 → rest < 36524 := by omega
  have hend : rest < 36525 := by omega
  have hdays : day < 1461 := by omega
  have hfour : year = 3 ∧ day = 1460 := by omega
  omega

/-- The day of a month, counted from zero, in a year that begins in March. -/
theorem monthOfYear_day_lt {d : Nat} (h : d < 366) :
    (monthOfYear d).2 <
      (if (monthOfYear d).1 = 11 then (if d = 365 then 29 else 28)
        else if (monthOfYear d).1 = 1 ∨ (monthOfYear d).1 = 3 ∨ (monthOfYear d).1 = 6 ∨
          (monthOfYear d).1 = 8 then 30 else 31) := by
  generalize hm : (monthOfYear d).1 = months
  generalize hday : (monthOfYear d).2 = day
  simp only [monthOfYear, daysBeforeMonth] at hm hday
  split
  · split <;> omega
  · split <;> omega

/-- January is the tenth month after March. -/
theorem monthOfYear_lt_ten_iff {d : Nat} : (monthOfYear d).1 < 10 ↔ d < 306 := by
  simp only [monthOfYear]
  omega

theorem isLeapYear_iff {year : Int} :
    isLeapYear year = true ↔ year % 4 = 0 ∧ (year % 100 ≠ 0 ∨ year % 400 = 0) := by
  simp [isLeapYear]

theorem day_le_monthLength (year : Int) {d : Nat} (h : d < 366)
    (hleap : d = 365 → isLeapYear (year + 1) = true) :
    let (months, day) := monthOfYear d
    if months < 10 then day + 1 ≤ monthLength year (months + 3)
      else day + 1 ≤ monthLength (year + 1) (months - 9) := by
  obtain ⟨hmonth, -⟩ := monthOfYear_bounds h
  have hday := monthOfYear_day_lt h
  dsimp only
  generalize (monthOfYear d).1 = months at *
  generalize (monthOfYear d).2 = day at *
  interval_cases months <;> simp [monthLength] at hday ⊢ <;> try omega
  -- the February at the end
  by_cases hlast : d = 365
  · rw [if_pos hlast] at hday
    rw [hleap hlast]
    simp
    omega
  · rw [if_neg hlast] at hday
    split <;> omega

/-- The years of the supported days. -/
theorem civil_year_bounds (date : Date) :
    minYear ≤ date.civil.year ∧ date.civil.year ≤ maxYear := by
  have hfirst := date.first_le
  have hlast := date.le_last
  have hpos : 0 ≤ (date.day + epochDays) % cycleDays := by
    unfold cycleDays
    omega
  have hlt : ((date.day + epochDays) % cycleDays).toNat < 146097 := by
    unfold cycleDays at hpos ⊢
    omega
  obtain ⟨hyear, hday, hsum⟩ := yearOfCycle_bounds hlt
  have hjanuary := @monthOfYear_lt_ten_iff (yearOfCycle ((date.day + epochDays) % cycleDays).toNat).2
  have hcycle : (date.day + epochDays) / cycleDays * 146097 +
      ((date.day + epochDays) % cycleDays).toNat = date.day + 719468 := by
    unfold cycleDays epochDays at hpos ⊢
    omega
  simp only [Date.civil, civil, minYear, maxYear]
  generalize (date.day + epochDays) / cycleDays = cycle at *
  generalize ((date.day + epochDays) % cycleDays).toNat = rest at *
  generalize (yearOfCycle rest).1 = year at *
  generalize (yearOfCycle rest).2 = dayOfYear at *
  generalize (monthOfYear dayOfYear).1 = months at *
  -- the first day is in the cycle -656 and the last one in the cycle 655
  have hcycles : -656 ≤ cycle ∧ cycle ≤ 655 := by omega
  have hyears : (cycle = -656 → 256 ≤ year) ∧ (cycle = 655 → year ≤ 142) := by omega
  have hstart : cycle = -656 → year = 256 → 306 ≤ dayOfYear := by
    rintro rfl rfl
    omega
  have hend : cycle = 655 → year = 142 → dayOfYear < 306 := by
    rintro rfl rfl
    omega
  split <;> dsimp only <;> omega

@[simp] theorem isValid_civil (date : Date) : date.civil.isValid = true := by
  obtain ⟨hmin, hmax⟩ := civil_year_bounds date
  have hlt : ((date.day + epochDays) % cycleDays).toNat < 146097 := by
    unfold cycleDays
    omega
  obtain ⟨hyear, hday, -⟩ := yearOfCycle_bounds hlt
  obtain ⟨hmonth, -⟩ := monthOfYear_bounds hday
  have hleap := leap_of_yearOfCycle hlt
  simp only [Date.civil, civil] at hmin hmax ⊢
  generalize (date.day + epochDays) / cycleDays = cycle at *
  generalize ((date.day + epochDays) % cycleDays).toNat = rest at *
  have hlength := day_le_monthLength (cycle * 400 + ((yearOfCycle rest).1 : Int)) hday
    fun hlast => by
      have hyears := hleap hlast
      rw [isLeapYear_iff]
      omega
  dsimp only at hlength
  split <;> next hm =>
    simp only [hm, if_true, if_false] at hmin hmax hlength
    simp [Civil.isValid, hmin, hmax, hlength]
    omega

@[simp] theorem Date.ofCivil?_civil (date : Date) : ofCivil? date.civil = some date := by
  rw [ofCivil?, if_pos (isValid_civil date), Date.civil, dayNumber_civil, ofDay?_day]

theorem Date.civil_month_day (date : Date) : date.civil.month < 13 ∧ date.civil.day < 32 := by
  have hvalid := isValid_civil date
  simp only [Civil.isValid, Bool.and_eq_true, decide_eq_true_eq] at hvalid
  obtain ⟨⟨⟨-, hmonth⟩, -⟩, hday⟩ := hvalid
  have hlength : monthLength date.civil.year date.civil.month ≤ 31 := by
    unfold monthLength
    split
    · split <;> omega
    · split <;> omega
  omega

end RecordMapper.Calendar
