import RecordMapper.Calendar.Time

/-!
# Milliseconds of dates and times

A number of milliseconds is taken apart by division towards the floor: the quotient by the
milliseconds of a day is the day, before the epoch as well as after it, and what remains is the
time of day, which is never negative. Back from a time without leap second, all that is lost is
what lies below the millisecond.
-/

set_option autoImplicit false

namespace RecordMapper.Calendar

/-- The milliseconds of a day without leap second. -/
def dayMillis : Int := 86400000

theorem Date.ofDay?_eq_some_iff {day : Int} {d : Date} : ofDay? day = some d ↔ d.day = day := by
  constructor
  · intro h
    unfold ofDay? at h
    split at h
    · cases h
      rfl
    · cases h
  · rintro rfl
    exact ofDay?_day d

theorem Date.exists_ofDay?_iff {day : Int} :
    (∃ d, ofDay? day = some d) ↔ -96465292 ≤ day ∧ day ≤ 95026236 := by
  unfold ofDay?
  split
  · next h => exact ⟨fun _ => h, fun _ => ⟨_, rfl⟩⟩
  · next h =>
    constructor
    · rintro ⟨d, hd⟩
      cases hd
    · intro hday
      exact absurd hday h

namespace Time

/-- Outside of the last seconds of a minute that are leap seconds. -/
def IsPlain (t : Time) : Prop := t.nanosecond < 1000000000

instance (t : Time) : Decidable t.IsPlain := inferInstanceAs (Decidable (_ < _))

/-- The last time that is a whole number of milliseconds. -/
def floored (t : Time) : Time :=
  ⟨t.second, t.nanosecond / 1000000 * 1000000, by have := t.valid; omega⟩

theorem millis_lt {t : Time} (h : t.IsPlain) : (t.millis : Int) < dayMillis := by
  have hsecond := t.valid.1
  unfold IsPlain at h
  unfold millis dayMillis
  omega

/-- A leap second reaches into the next minute, at the end of a day into the next day. -/
theorem millis_lt_of_leap (t : Time) : t.millis < 86401000 := by
  have hvalid := t.valid
  unfold millis
  omega

theorem ofMillis_millis {t : Time} (h : t.IsPlain) : ofMillis t.millis = t.floored := by
  have hsecond := t.valid.1
  unfold IsPlain at h
  simp only [ofMillis, floored, millis, Time.mk.injEq]
  omega

end Time

namespace Timestamp

def floored (t : Timestamp) : Timestamp := ⟨t.date, t.time.floored⟩

theorem ofMillis?_eq_some_iff {n : Int} {t : Timestamp} :
    ofMillis? n = some t ↔ t.date.day = n / dayMillis ∧ t.time = .ofMillis (n % dayMillis).toNat := by
  constructor
  · intro h
    obtain ⟨d, hd, rfl⟩ := Option.map_eq_some_iff.mp h
    exact ⟨Date.ofDay?_eq_some_iff.mp hd, rfl⟩
  · rintro ⟨hday, htime⟩
    obtain ⟨date, time⟩ := t
    subst htime
    exact Option.map_eq_some_iff.mpr ⟨date, Date.ofDay?_eq_some_iff.mpr hday, rfl⟩

/-- From the first to the last millisecond of the supported years. -/
theorem exists_ofMillis?_iff {n : Int} :
    (∃ t, ofMillis? n = some t) ↔ -8334601228800000 ≤ n ∧ n < 8210266876800000 := by
  have hday : (∃ t, ofMillis? n = some t) ↔ ∃ d, Date.ofDay? (n / dayMillis) = some d := by
    constructor
    · rintro ⟨t, ht⟩
      exact ⟨t.date, Date.ofDay?_eq_some_iff.mpr (ofMillis?_eq_some_iff.mp ht).1⟩
    · rintro ⟨d, hd⟩
      exact ⟨⟨d, .ofMillis (n % dayMillis).toNat⟩,
        ofMillis?_eq_some_iff.mpr ⟨Date.ofDay?_eq_some_iff.mp hd, rfl⟩⟩
  rw [hday, Date.exists_ofDay?_iff]
  unfold dayMillis
  omega

/-- The time of day is what is left over of whole days. -/
theorem millis_time_of_ofMillis? {n : Int} {t : Timestamp} (h : ofMillis? n = some t) :
    (t.time.millis : Int) = n % dayMillis := by
  have hrest : 0 ≤ n % dayMillis ∧ n % dayMillis < 86400000 := by
    unfold dayMillis
    omega
  rw [(ofMillis?_eq_some_iff.mp h).2, Time.millis_ofMillis (by omega), Int.toNat_of_nonneg hrest.1]

theorem ofMillis?_millis {t : Timestamp} (h : t.time.IsPlain) :
    ofMillis? t.millis = some t.floored := by
  have hlt := Time.millis_lt h
  have hsplit : t.millis / dayMillis = t.date.day ∧ t.millis % dayMillis = t.time.millis := by
    unfold millis dayMillis
    unfold dayMillis at hlt
    omega
  rw [ofMillis?_eq_some_iff, hsplit.1, hsplit.2, Int.toNat_natCast, Time.ofMillis_millis h]
  exact ⟨rfl, rfl⟩

theorem millis_bounds (t : Timestamp) :
    -8334601228800000 ≤ t.millis ∧ t.millis < 8210266876801000 := by
  have htime := t.time.millis_lt_of_leap
  have hfirst := t.date.first_le
  have hlast := t.date.le_last
  unfold millis
  omega

end Timestamp

end RecordMapper.Calendar
