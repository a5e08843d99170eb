import RecordMapper.Proofs.Calendar.Millisecond
import RecordMapper.Proofs.Result
import RecordMapper.Value.Conversion

/-!
# Values counted in milliseconds

Dates, times and timestamps are brought to integers of 64 bits and back by four separate rules.
They fit together: the date and the time that an integer stands for are those of its timestamp,
each of the three counts the milliseconds of its own part, and the parts add up to the integer.
-/

set_option autoImplicit false

namespace RecordMapper.Value

open Calendar

/-- The milliseconds of a calendar value are far inside 64 bits. -/
theorem convert_int64_of_millis {v : Value} {n : Int} (hinteger : v.toInteger = .ok n)
    (hother : v.type ≠ .int64) (hnull : v.isNull = false)
    (hlow : -8334601228800000 ≤ n) (hhigh : n < 8210266876801000) :
    ∃ k : Int64, k.toInt = n ∧ v.convert .int64 = .ok (.int64 k) := by
  refine ⟨Int64.ofInt n, Int64.toInt_ofInt_of_le (by omega) (by omega), ?_⟩
  rw [convert, hnull, hinteger]
  simp [hother, Except.map]

theorem convert_int64_of_date (d : Date) :
    ∃ k : Int64, k.toInt = d.day * dayMillis ∧ (date d).convert .int64 = .ok (.int64 k) := by
  have hfirst := d.first_le
  have hlast := d.le_last
  unfold dayMillis
  exact convert_int64_of_millis (v := date d) rfl nofun rfl (by omega) (by omega)

theorem convert_int64_of_time (t : Time) :
    ∃ k : Int64, k.toInt = t.millis ∧ (time t).convert .int64 = .ok (.int64 k) := by
  have hlt := t.millis_lt_of_leap
  exact convert_int64_of_millis (v := time t) rfl nofun rfl (by omega) (by omega)

theorem convert_int64_of_timestamp (t : Timestamp) :
    ∃ k : Int64, k.toInt = t.millis ∧ (timestamp t).convert .int64 = .ok (.int64 k) := by
  have hbounds := t.millis_bounds
  exact convert_int64_of_millis (v := timestamp t) rfl nofun rfl hbounds.1 hbounds.2

theorem convert_timestamp_eq_ok_iff {n : Int64} {t : Timestamp} :
    (int64 n).convert .timestamp = .ok (.timestamp t) ↔ Timestamp.ofMillis? n.toInt = some t := by
  have hconvert : (int64 n).convert .timestamp =
      ((int64 n).found .timestamp (Timestamp.ofMillis? n.toInt)).map .timestamp := rfl
  rw [hconvert]
  cases Timestamp.ofMillis? n.toInt with
  | none => exact ⟨nofun, nofun⟩
  | some other =>
    constructor
    · intro h
      cases h
      rfl
    · intro h
      cases h
      rfl

theorem convert_date_of_ofMillis? {n : Int64} {t : Timestamp}
    (h : Timestamp.ofMillis? n.toInt = some t) : (int64 n).convert .date = .ok (.date t.date) := by
  have hconvert : (int64 n).convert .date =
      ((int64 n).found .date ((Timestamp.ofMillis? n.toInt).map (·.date))).map .date := rfl
  rw [hconvert, h]
  rfl

theorem convert_time_of_ofMillis? {n : Int64} {t : Timestamp}
    (h : Timestamp.ofMillis? n.toInt = some t) : (int64 n).convert .time = .ok (.time t.time) := by
  have hconvert : (int64 n).convert .time =
      ((int64 n).found .time ((Timestamp.ofMillis? n.toInt).map (·.time))).map .time := rfl
  rw [hconvert, h]
  rfl

/-- An integer stands for a timestamp from the first to the last millisecond of the supported
years. The timestamp leads back to the integer; the integer stands for its date and for its time
as well; its time counts the milliseconds that are left over of whole days, which are never
negative, and its date counts the others. A timestamp that is not in a leap second comes back from
its milliseconds without what lies below them. -/
theorem millis_fit_together :
    (∀ n : Int64, (∃ t, (int64 n).convert .timestamp = .ok (.timestamp t)) ↔
      -8334601228800000 ≤ n.toInt ∧ n.toInt < 8210266876800000) ∧
    (∀ (n : Int64) (t : Timestamp), (int64 n).convert .timestamp = .ok (.timestamp t) →
      (timestamp t).convert .int64 = .ok (.int64 n) ∧
      (int64 n).convert .date = .ok (.date t.date) ∧
      (int64 n).convert .time = .ok (.time t.time) ∧
      (∃ rest : Int64, (time t.time).convert .int64 = .ok (.int64 rest) ∧
        rest.toInt = n.toInt % 86400000 ∧ 0 ≤ rest.toInt) ∧
      ∃ days : Int64, (date t.date).convert .int64 = .ok (.int64 days) ∧
        days.toInt = n.toInt - n.toInt % 86400000) ∧
    ∀ t : Timestamp, t.time.nanosecond < 1000000000 →
      ∃ n : Int64, (timestamp t).convert .int64 = .ok (.int64 n) ∧
        (int64 n).convert .timestamp = .ok (.timestamp t.floored) := by
  refine ⟨fun n => ?_, fun n t h => ?_, fun t hplain => ?_⟩
  · simp only [convert_timestamp_eq_ok_iff]
    exact Timestamp.exists_ofMillis?_iff
  · have hmillis := convert_timestamp_eq_ok_iff.mp h
    obtain ⟨back, hback, hbacked⟩ := convert_int64_of_timestamp t
    obtain ⟨rest, hrest, hresting⟩ := convert_int64_of_time t.time
    obtain ⟨days, hdays, hdated⟩ := convert_int64_of_date t.date
    have hday := (Timestamp.ofMillis?_eq_some_iff.mp hmillis).1
    have htime := Timestamp.millis_time_of_ofMillis? hmillis
    rw [Timestamp.millis_of_ofMillis? hmillis] at hback
    obtain rfl := Int64.toInt_inj.mp hback
    rw [hday] at hdays
    rw [htime] at hrest
    unfold dayMillis at hdays hrest
    refine ⟨hbacked, convert_date_of_ofMillis? hmillis, convert_time_of_ofMillis? hmillis,
      ⟨rest, hresting, hrest, by omega⟩, days, hdated, by omega⟩
  · obtain ⟨n, hn, hconverted⟩ := convert_int64_of_timestamp t
    refine ⟨n, hconverted, ?_⟩
    rw [convert_timestamp_eq_ok_iff, hn]
    exact Timestamp.ofMillis?_millis hplain

/-- One and a half milliseconds before the epoch: the day before, and its last milliseconds. -/
theorem millis_fit_together_before_epoch :
    let t : Timestamp := ⟨⟨-1, by decide, by decide⟩, ⟨86399, 998500000, by decide⟩⟩
    t.time.nanosecond < 1000000000 ∧
      (int64 (-2)).convert .timestamp = .ok (.timestamp t.floored) ∧
      (timestamp t).convert .int64 = .ok (.int64 (-2)) ∧
      (timestamp t.floored).convert .int64 = .ok (.int64 (-2)) ∧
      (time t.floored.time).convert .int64 = .ok (.int64 86399998) ∧
      (date t.floored.date).convert .int64 = .ok (.int64 (-86400000)) := by
  intro t
  obtain ⟨-, hparts, hback⟩ := millis_fit_together
  obtain ⟨n, hn, hfloored⟩ := hback t (by decide)
  obtain rfl : (-2 : Int64) = n := by
    cases hn
    decide
  obtain ⟨htimestamp, -, -, ⟨rest, hrest, hleft, -⟩, days, hdays, hday⟩ := hparts _ _ hfloored
  obtain rfl : rest = 86399998 := Int64.toInt_inj.mp hleft
  obtain rfl : days = -86400000 := Int64.toInt_inj.mp hday
  exact ⟨by decide, hfloored, hn, htimestamp, hrest, hdays⟩

end RecordMapper.Value
