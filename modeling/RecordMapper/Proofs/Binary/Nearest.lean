import RecordMapper.Proofs.Binary.Rounding

/-!
# Numbers nearest to a rational

Rounding gives a number with the sign that is asked for and the pattern to which the magnitude is
rounded. It is finite exactly for rationals in front of the middle of the gap behind the largest
number, and zero exactly for those up to the middle of the gap behind zero. A finite number that
rounding gives is the nearest one, and in a tie the even one.
-/

set_option autoImplicit false

namespace RecordMapper

namespace BinaryFormat

/-- Formats with room for a fraction and for more than one exponent. -/
structure IsRegular (f : BinaryFormat) : Prop where
  precision : 2 ≤ f.precision
  exponentBits : 1 ≤ f.exponentBits

theorem isRegular_double : double.IsRegular := ⟨by decide, by decide⟩

variable {f : BinaryFormat}

/-- The middle of the gap behind the largest finite number. -/
def limit (f : BinaryFormat) : Rat := f.middle (f.infinity - 1)

namespace IsRegular

theorem two_dvd_span (hf : f.IsRegular) : 2 ∣ f.span :=
  dvd_pow_self 2 (Nat.ne_of_gt (Nat.le_sub_of_add_le hf.precision))

theorem infinity_eq (f : BinaryFormat) : f.infinity = (2 ^ f.exponentBits - 1) * f.span := rfl

theorem infinity_pos (hf : f.IsRegular) : 0 < f.infinity := by
  have hpow : 2 ^ 1 ≤ 2 ^ f.exponentBits := Nat.pow_le_pow_right (by decide) hf.exponentBits
  rw [infinity_eq]
  exact Nat.mul_pos (by omega) f.span_pos

theorem infinity_even (hf : f.IsRegular) : f.infinity % 2 = 0 := by
  rw [infinity_eq]
  exact Nat.mod_eq_zero_of_dvd (hf.two_dvd_span.mul_left _)

theorem signWeight_eq (hf : f.IsRegular) : f.signWeight = 2 ^ f.exponentBits * f.span := by
  have hwidth : f.width - 1 = f.exponentBits + f.fractionBits := by
    have hprecision := hf.precision
    unfold width fractionBits
    omega
  exact (congrArg (2 ^ ·) hwidth).trans (Nat.pow_add 2 _ _)

theorem infinity_lt_signWeight (hf : f.IsRegular) : f.infinity < f.signWeight := by
  rw [infinity_eq, hf.signWeight_eq]
  apply Nat.mul_lt_mul_of_pos_right _ f.span_pos
  exact Nat.sub_lt (Nat.pow_pos (by decide)) (by decide)

theorem two_pow_width (hf : f.IsRegular) : 2 ^ f.width = 2 * f.signWeight := by
  have hwidth : f.width = (f.width - 1) + 1 := by
    have hprecision := hf.precision
    unfold width
    omega
  rw [hwidth, Nat.pow_succ, Nat.mul_comm]
  rfl

end IsRegular

end BinaryFormat

namespace Binary
variable {f : BinaryFormat} {n : Nat} {x : Rat}

open BinaryFormat

theorem toNat_ofMagnitude (hf : f.IsRegular) (hn : n < f.signWeight) (negative : Bool) :
    (ofMagnitude f negative n).bits.toNat = (if negative then f.signWeight else 0) + n := by
  unfold ofMagnitude
  rw [BitVec.toNat_ofNat, hf.two_pow_width]
  apply Nat.mod_eq_of_lt
  split <;> omega

theorem magnitude_ofMagnitude (hf : f.IsRegular) (hn : n < f.signWeight) (negative : Bool) :
    (ofMagnitude f negative n).magnitude = n := by
  rw [magnitude, toNat_ofMagnitude hf hn]
  cases negative with
  | true => rw [if_pos rfl, Nat.add_mod_left, Nat.mod_eq_of_lt hn]
  | false => rw [if_neg Bool.false_ne_true, Nat.zero_add, Nat.mod_eq_of_lt hn]

theorem isNegative_ofMagnitude (hf : f.IsRegular) (hn : n < f.signWeight) (negative : Bool) :
    (ofMagnitude f negative n).isNegative = negative := by
  rw [isNegative, toNat_ofMagnitude hf hn]
  cases negative with
  | true => exact decide_eq_true (Nat.le_add_right _ _)
  | false => exact decide_eq_false (by simpa using hn)

/-- A magnitude with its sign. -/
def signed (negative : Bool) (x : Rat) : Rat := if negative then -x else x

theorem abs_signed (negative : Bool) (hx : 0 ≤ x) : |signed negative x| = x := by
  cases negative with
  | true => exact (abs_neg x).trans (abs_of_nonneg hx)
  | false => exact abs_of_nonneg hx

theorem signed_sub (negative : Bool) (x y : Rat) :
    |signed negative x - signed negative y| = |x - y| := by
  cases negative with
  | true =>
    rw [← abs_neg (x - y)]
    exact congrArg _ (by simp only [signed, if_true]; ring)
  | false => rfl

theorem signed_add (negative : Bool) (x y : Rat) :
    |signed negative x + signed negative y| = |x + y| := by
  cases negative with
  | true =>
    rw [← abs_neg (x + y)]
    exact congrArg _ (by simp only [signed, if_true]; ring)
  | false => rfl

theorem toRat_eq_signed (x : Binary f) : x.toRat = signed x.isNegative (f.value x.magnitude) := rfl

theorem value_nonneg (n : Nat) : 0 ≤ f.value n := by
  unfold value
  positivity

theorem abs_toRat (x : Binary f) : |x.toRat| = f.value x.magnitude :=
  abs_signed _ (value_nonneg _)

/-- Numbers with one pattern are equal or opposite. -/
theorem toRat_eq_neg {x y : Binary f} (h : y.magnitude = x.magnitude) (hne : y.toRat ≠ x.toRat) :
    y.toRat = -x.toRat := by
  have habs : |y.toRat| = |x.toRat| := by rw [abs_toRat, abs_toRat, h]
  exact (abs_eq_abs.mp habs).resolve_left hne

@[simp] theorem value_zero (f : BinaryFormat) : f.value 0 = 0 := by
  simp [value, significandAt]

/-- Rounding gives the pattern to which the magnitude is rounded, but not one above infinity. -/
theorem exists_rounds (hf : f.IsRegular) (hx : 0 ≤ x) :
    ∃ n, f.Rounds x n ∧ roundMagnitude f x = min f.infinity n := by
  rcases hx.eq_or_lt with rfl | hpos
  · refine ⟨0, ⟨?_, nofun, fun _ => rfl⟩, ?_⟩
    · exact (value_zero f).symm.le.trans (value_lt_middle 0).le
    · rw [roundMagnitude, if_pos rfl, Nat.min_zero]
  · exact ⟨f.pattern x, rounds_pattern hf.precision hpos, roundMagnitude_eq hpos.ne'⟩

theorem round_eq (negative : Bool) (hx : 0 ≤ x) :
    round f negative x = ofMagnitude f negative (roundMagnitude f x) := by
  rw [round, if_neg (not_lt_of_ge hx)]

theorem magnitude_round (hf : f.IsRegular) (negative : Bool) (hx : 0 ≤ x) :
    (round f negative x).magnitude = roundMagnitude f x ∧
      (round f negative x).isNegative = negative := by
  obtain ⟨n, -, hn⟩ := exists_rounds hf hx
  have hlt : roundMagnitude f x < f.signWeight := by
    rw [hn]
    exact Nat.lt_of_le_of_lt (Nat.min_le_left _ _) hf.infinity_lt_signWeight
  rw [round_eq negative hx]
  exact ⟨magnitude_ofMagnitude hf hlt negative, isNegative_ofMagnitude hf hlt negative⟩

theorem isFinite_round_iff (hf : f.IsRegular) (negative : Bool) (hx : 0 ≤ x) :
    (round f negative x).isFinite = true ↔ x < f.limit := by
  obtain ⟨n, hrounds, hn⟩ := exists_rounds hf hx
  have hpos := hf.infinity_pos
  have heven := hf.infinity_even
  have hle := hrounds.le_iff (f.infinity - 1)
  rw [isFinite, decide_eq_true_eq, (magnitude_round hf negative hx).1, hn]
  constructor
  · intro hlt
    rcases hle.mp (by omega) with h | ⟨-, hodd⟩
    · exact h
    · omega
  · intro hlt
    have := hle.mpr (.inl hlt)
    omega

theorem isZero_round_iff (hf : f.IsRegular) (negative : Bool) (hx : 0 ≤ x) :
    (round f negative x).isZero = true ↔ x ≤ f.middle 0 := by
  obtain ⟨n, hrounds, hn⟩ := exists_rounds hf hx
  have hpos := hf.infinity_pos
  have hle := hrounds.le_iff 0
  rw [isZero, decide_eq_true_eq, (magnitude_round hf negative hx).1, hn]
  constructor
  · intro hzero
    rcases hle.mp (by omega) with h | ⟨h, -⟩
    · exact h.le
    · exact h.le
  · intro h
    have : n ≤ 0 := hle.mpr (h.lt_or_eq.imp_right fun heq => ⟨heq, rfl⟩)
    omega

/-- The number of the format that is nearest to a rational: infinite from the limit of the format
on, otherwise finite with no other number nearer, and even if there is one as near. -/
structure IsNearest (r : Rat) (x : Binary f) : Prop where
  isFinite_iff : x.isFinite = true ↔ |r| < f.limit
  isNaN_eq : x.isNaN = false
  nearest : x.isFinite = true → ∀ y : Binary f, y.isFinite = true → |r - x.toRat| ≤ |r - y.toRat|
  even : x.isFinite = true → ∀ y : Binary f, y.isFinite = true → y.toRat ≠ x.toRat →
    |r - y.toRat| = |r - x.toRat| → x.significand % 2 = 0

theorem significand_mod_two (hf : f.IsRegular) (x : Binary f) :
    x.significand % 2 = x.magnitude % 2 := by
  obtain ⟨half, hhalf⟩ := hf.two_dvd_span
  have hsplit := Nat.div_add_mod x.magnitude f.span
  rw [hhalf, Nat.mul_assoc] at hsplit
  change f.significandAt x.magnitude % 2 = _
  unfold significandAt
  rw [hhalf]
  split
  · omega
  · omega

/-- Only zero is as near to a magnitude as its opposite is. -/
theorem eq_zero_of_opposite (h : f.Rounds x n)
    (htie : |x + f.value n| = |x - f.value n|) : n = 0 := by
  by_contra hne
  obtain ⟨j, rfl⟩ := Nat.exists_eq_succ_of_ne_zero hne
  have hvalue : 0 < f.value (j + 1) :=
    (value_nonneg (f := f) j).trans_lt (value_strictMono (Nat.lt_succ_self j))
  have hpositive : 0 < x := by
    have hmiddle : f.value j < f.middle j := value_lt_middle j
    exact (value_nonneg j).trans_lt (hmiddle.trans_le (h.above j rfl))
  rw [abs_of_pos (by linarith)] at htie
  rcases abs_cases (x - f.value (j + 1)) with ⟨habs, -⟩ | ⟨habs, -⟩
  · rw [habs] at htie
    linarith
  · rw [habs] at htie
    linarith

theorem isNearest_round (hf : f.IsRegular) (negative : Bool) (hx : 0 ≤ x) :
    IsNearest (signed negative x) (round f negative x) := by
  obtain ⟨n, hrounds, hn⟩ := exists_rounds hf hx
  obtain ⟨hmagnitude, hsign⟩ := magnitude_round hf negative hx
  rw [hn] at hmagnitude
  have hfinite (h : (round f negative x).isFinite = true) : (round f negative x).magnitude = n := by
    have hlt : (round f negative x).magnitude < f.infinity := of_decide_eq_true h
    omega
  have hdistance (h : (round f negative x).isFinite = true) :
      |signed negative x - (round f negative x).toRat| = |x - f.value n| := by
    rw [toRat_eq_signed, hsign, hfinite h, signed_sub]
  -- the sign of the other number can only take it farther away
  have hother (y : Binary f) : |x - f.value y.magnitude| ≤ |signed negative x - y.toRat| := by
    have hle := abs_abs_sub_abs_le (signed negative x) y.toRat
    rwa [abs_signed negative hx, abs_toRat] at hle
  refine ⟨?_, ?_, fun h y _ => ?_, fun h y _ hne htie => ?_⟩
  · rw [abs_signed negative hx]
    exact isFinite_round_iff hf negative hx
  · apply decide_eq_false
    omega
  · rw [hdistance h]
    exact (hrounds.nearest y.magnitude).1.trans (hother y)
  · rw [significand_mod_two hf, hfinite h]
    rw [hdistance h] at htie
    by_cases hsame : y.magnitude = n
    · have hopposite : y.toRat = -signed negative (f.value n) := by
        rw [← hfinite h] at hsame
        rw [toRat_eq_neg hsame hne, toRat_eq_signed, hsign, hfinite h]
      rw [hopposite, sub_neg_eq_add, signed_add] at htie
      rw [eq_zero_of_opposite hrounds htie]
    · refine (hrounds.nearest y.magnitude).2 hsame (le_antisymm ?_ (hrounds.nearest _).1)
      exact htie ▸ hother y

/-- A rational that is a number of the format is its own nearest number. -/
theorem IsNearest.exact {r : Rat} {x y : Binary f} (h : IsNearest r x) (hy : y.isFinite = true)
    (hr : y.toRat = r) : x.isFinite = true ∧ x.toRat = r := by
  have hpattern : y.magnitude < f.infinity := of_decide_eq_true hy
  have hfinite : x.isFinite = true := by
    rw [h.isFinite_iff, ← hr, abs_toRat]
    refine (value_lt_middle _).trans_le (middle_strictMono.monotone ?_)
    omega
  have hle := h.nearest hfinite y hy
  rw [hr, sub_self, abs_zero] at hle
  have hzero := abs_eq_zero.mp (le_antisymm hle (abs_nonneg _))
  exact ⟨hfinite, (sub_eq_zero.mp hzero).symm⟩

theorem round_of_le_middle (hf : f.IsRegular) (negative : Bool) (hx : 0 ≤ x)
    (h : x ≤ f.middle 0) : round f negative x = round f negative 0 := by
  have hzero : roundMagnitude f x = 0 := by
    rw [← (magnitude_round hf negative hx).1]
    exact of_decide_eq_true ((isZero_round_iff hf negative hx).mpr h)
  rw [round_eq negative hx, round_eq negative le_rfl, hzero, roundMagnitude, if_pos rfl]

theorem round_of_limit_le (hf : f.IsRegular) (negative : Bool) (hx : 0 ≤ x) (h : f.limit ≤ x) :
    round f negative x = infinite f negative := by
  obtain ⟨n, -, hn⟩ := exists_rounds hf hx
  have hinfinite : ¬ (round f negative x).isFinite = true := by
    rw [isFinite_round_iff hf negative hx]
    exact not_lt_of_ge h
  rw [isFinite, decide_eq_true_eq, (magnitude_round hf negative hx).1] at hinfinite
  rw [round_eq negative hx, infinite]
  exact congrArg _ (by omega)

theorem middle_zero_double : BinaryFormat.double.middle 0 = (2 : Rat) ^ (-1075 : Int) := by
  have hexponent : BinaryFormat.double.exponentAt 0 = -1074 := by rfl
  have hhalf : (2 : Rat) ^ (-1074 : Int) = 2 * 2 ^ (-1075 : Int) := by
    rw [← zpow_one_add₀ two_ne_zero]
    rfl
  rw [middle, value_zero, gap, hexponent, hhalf]
  ring

theorem limit_double : BinaryFormat.double.limit = (2 : Rat) ^ 1024 - 2 ^ 970 := by
  have hspan : BinaryFormat.double.span = 2 ^ 52 := rfl
  have hpattern : BinaryFormat.double.infinity - 1 =
      2045 * BinaryFormat.double.span + (2 ^ 53 - 1) := by rfl
  have hlow : 2045 = 0 ∨ BinaryFormat.double.span ≤ 2 ^ 53 - 1 := by rw [hspan]; omega
  have hhigh : 2 ^ 53 - 1 < 2 * BinaryFormat.double.span := by rw [hspan]; omega
  have hexponent : BinaryFormat.double.minExponent + (2045 : Nat) = 971 := by rfl
  rw [BinaryFormat.limit, hpattern, middle, gap, value_pattern hlow hhigh.le,
    (at_pattern hlow hhigh).1, hexponent]
  have hunit : (2 : Rat) ^ (971 : Int) = 2 * 2 ^ 970 := by
    rw [zpow_ofNat, pow_succ']
  have hend : (2 : Rat) ^ 1024 = 2 ^ 54 * 2 ^ 970 := by rw [← pow_add]
  rw [hunit, hend]
  generalize (2 : Rat) ^ 970 = unit
  push_cast
  ring

end Binary

end RecordMapper
