import RecordMapper.Calendar.Date

/-!
# Times of day and timestamps

A time counts seconds and nanoseconds of a day. The last second of any minute may be a leap second,
whose nanoseconds run on up to two thousand millions. Timestamps have no time zone; the epoch is
1970-01-01 00:00:00, and milliseconds from there are counted downwards before it.
-/

set_option autoImplicit false
set_option maxRecDepth 4096

namespace RecordMapper.Calendar

structure Time where
  second : Nat
  nanosecond : Nat
  valid : second < 86400 ∧
    (nanosecond < 1000000000 ∨ second % 60 = 59 ∧ nanosecond < 2000000000)
deriving DecidableEq

namespace Time

def midnight : Time := ⟨0, 0, by decide⟩

def ofSecond? (second nanosecond : Nat) : Option Time :=
  if h : second < 86400 ∧
      (nanosecond < 1000000000 ∨ second % 60 = 59 ∧ nanosecond < 2000000000) then
    some ⟨second, nanosecond, h⟩
  else none

/-- The time on a clock; second 60 is the leap second after second 59. -/
def ofClock? (hour minute second nanosecond : Nat) : Option Time :=
  if hour < 24 ∧ minute < 60 ∧ second ≤ 60 ∧ nanosecond < 1000000000 then
    if second = 60 then ofSecond? (hour * 3600 + minute * 60 + 59) (nanosecond + 1000000000)
    else ofSecond? (hour * 3600 + minute * 60 + second) nanosecond
  else none

def hour (t : Time) : Nat := t.second / 3600

def minute (t : Time) : Nat := t.second / 60 % 60

/-- Second of the minute, 60 in a leap second. -/
def clockSecond (t : Time) : Nat := t.second % 60 + t.nanosecond / 1000000000

/-- Milliseconds since midnight; they run on through a leap second. -/
def millis (t : Time) : Nat := t.second * 1000 + t.nanosecond / 1000000

def ofMillis (n : Nat) : Time :=
  ⟨n / 1000 % 86400, n % 1000 * 1000000, by omega⟩

theorem millis_ofMillis {n : Nat} (h : n < 86400000) : (ofMillis n).millis = n := by
  simp only [millis, ofMillis]
  omega

end Time

structure Timestamp where
  date : Date
  time : Time
deriving DecidableEq

namespace Timestamp

def epoch : Timestamp := ⟨.epoch, .midnight⟩

def millis (t : Timestamp) : Int := t.date.day * 86400000 + t.time.millis

def ofMillis? (n : Int) : Option Timestamp :=
  (Date.ofDay? (n / 86400000)).map fun date => ⟨date, .ofMillis (n % 86400000).toNat⟩

theorem millis_of_ofMillis? {n : Int} {t : Timestamp} (h : ofMillis? n = some t) :
    t.millis = n := by
  simp only [ofMillis?, Option.map_eq_some_iff] at h
  obtain ⟨date, hdate, rfl⟩ := h
  have hday : date.day = n / 86400000 := by
    simp only [Date.ofDay?] at hdate
    split at hdate
    · cases hdate; rfl
    · cases hdate
  have hrest : (n % 86400000).toNat < 86400000 := by omega
  simp only [millis, Time.millis_ofMillis hrest, hday]
  omega

end Timestamp

end RecordMapper.Calendar
