import Mathlib.Algebra.Order.Field.Power
import Mathlib.Data.Rat.Defs
import Mathlib.Tactic.FieldSimp
import Mathlib.Tactic.Linarith
import Mathlib.Tactic.Positivity
import Mathlib.Tactic.Ring
import RecordMapper.Binary.Basic

/-!
# Rounding to the nearest binary number

The patterns of the finite numbers of one sign are counted up from zero, and each is larger than
the one before by a power of two, its gap. A rational is rounded to a pattern if it lies between
the middles of the two gaps beside it; where it lies on a middle, the pattern is the even one.
-/

set_option autoImplicit false

namespace RecordMapper

namespace Binary

/-- Not above the middle behind it and not below the one before it, and on either only if even. -/
theorem nearestEven_between (num : Nat) {den : Nat} (hden : 0 < den) :
    let m := nearestEven num den
    2 * num ≤ (2 * m + 1) * den ∧ 2 * m * den ≤ 2 * num + den ∧
      (2 * num = (2 * m + 1) * den ∨ 2 * m * den = 2 * num + den → m % 2 = 0) := by
  intro m
  have hsplit := Nat.div_add_mod num den
  have hrest := Nat.mod_lt num hden
  have hodd (n : Nat) : (2 * n + 1) * den = 2 * (den * n) + den := by ring
  have heven (n : Nat) : 2 * n * den = 2 * (den * n) := by ring
  have hnext (n : Nat) : den * (n + 1) = den * n + den := by ring
  rw [hodd, heven]
  unfold m nearestEven
  dsimp only
  split
  · omega
  · split
    · rw [hnext]
      omega
    · -- half a unit is left: an odd quotient gives way to the next integer
      rcases Nat.mod_two_eq_zero_or_one (num / den) with hparity | hparity
      · simp only [hparity, Nat.add_zero]
        exact ⟨by omega, by omega, fun _ => trivial⟩
      · simp only [hparity, hnext]
        omega

theorem natAbs_num {y : Rat} (hy : 0 ≤ y) : (y.num.natAbs : Rat) = y * y.den := by
  rw [Rat.mul_den_eq_num, ← Int.cast_natCast, Int.natAbs_of_nonneg (Rat.num_nonneg.mpr hy)]

theorem nearestEven_rat {y : Rat} (hy : 0 ≤ y) :
    let m := nearestEven y.num.natAbs y.den
    2 * y ≤ 2 * m + 1 ∧ 2 * (m : Rat) ≤ 2 * y + 1 ∧
      (2 * y = 2 * m + 1 ∨ 2 * (m : Rat) = 2 * y + 1 → m % 2 = 0) := by
  intro m
  obtain ⟨hle, hge, heven⟩ := nearestEven_between y.num.natAbs y.den_pos
  have hden : (0 : Rat) < y.den := by exact_mod_cast y.den_pos
  have hnum := natAbs_num hy
  have hle : 2 * (y * y.den) ≤ (2 * m + 1) * y.den := by
    rw [← hnum]
    exact_mod_cast hle
  have hge : 2 * m * y.den ≤ 2 * (y * y.den) + y.den := by
    rw [← hnum]
    exact_mod_cast hge
  refine ⟨by nlinarith, by nlinarith, fun h => heven ?_⟩
  rcases h with h | h
  · left
    have hmiddle : 2 * (y * y.den) = (2 * m + 1) * y.den := by rw [← h]; ring
    rw [← hnum] at hmiddle
    exact_mod_cast hmiddle
  · right
    have hmiddle : 2 * m * y.den = 2 * (y * y.den) + y.den := by rw [h]; ring
    rw [← hnum] at hmiddle
    exact_mod_cast hmiddle

theorem leadingExponent_bounds {x : Rat} (hx : 0 < x) :
    (2 : Rat) ^ leadingExponent x ≤ x ∧ x < 2 ^ (leadingExponent x + 1) := by
  have hden : (0 : Rat) < x.den := by exact_mod_cast x.den_pos
  have hnum : x.num.natAbs ≠ 0 := Int.natAbs_ne_zero.mpr (Rat.num_pos.mpr hx).ne'
  have hlow : (2 : Rat) ^ (Nat.log2 x.num.natAbs : Int) ≤ x * x.den := by
    rw [← natAbs_num hx.le]
    exact_mod_cast Nat.log2_self_le hnum
  have hhigh : x * x.den < 2 ^ ((Nat.log2 x.num.natAbs : Int) + 1) := by
    rw [← natAbs_num hx.le]
    exact_mod_cast Nat.lt_log2_self
  have hlow' : (2 : Rat) ^ (Nat.log2 x.den : Int) ≤ x.den := by
    exact_mod_cast Nat.log2_self_le x.den_ne_zero
  have hhigh' : (x.den : Rat) < 2 ^ ((Nat.log2 x.den : Int) + 1) := by
    exact_mod_cast Nat.lt_log2_self
  have hlowest : (2 : Rat) ^ ((Nat.log2 x.num.natAbs : Int) - Nat.log2 x.den - 1) < x := by
    refine lt_of_mul_lt_mul_right ?_ hden.le
    calc (2 : Rat) ^ ((Nat.log2 x.num.natAbs : Int) - Nat.log2 x.den - 1) * x.den
        < 2 ^ ((Nat.log2 x.num.natAbs : Int) - Nat.log2 x.den - 1) *
            2 ^ ((Nat.log2 x.den : Int) + 1) := by gcongr
      _ = 2 ^ (Nat.log2 x.num.natAbs : Int) := by
        rw [← zpow_add₀ two_ne_zero]
        exact congrArg (fun e : Int => (2 : Rat) ^ e) (by omega)
      _ ≤ x * x.den := hlow
  have hhighest : x < (2 : Rat) ^ ((Nat.log2 x.num.natAbs : Int) - Nat.log2 x.den + 1) := by
    refine lt_of_mul_lt_mul_right ?_ hden.le
    calc x * x.den
        < 2 ^ ((Nat.log2 x.num.natAbs : Int) + 1) := hhigh
      _ = 2 ^ ((Nat.log2 x.num.natAbs : Int) - Nat.log2 x.den + 1) *
            2 ^ (Nat.log2 x.den : Int) := by
        rw [← zpow_add₀ two_ne_zero]
        exact congrArg (fun e : Int => (2 : Rat) ^ e) (by omega)
      _ ≤ 2 ^ ((Nat.log2 x.num.natAbs : Int) - Nat.log2 x.den + 1) * x.den := by gcongr
  unfold leadingExponent
  dsimp only
  split
  · next hle => exact ⟨hle, hhighest⟩
  · next hlt =>
    rw [Int.sub_add_cancel]
    exact ⟨hlowest.le, lt_of_not_ge hlt⟩

end Binary

namespace BinaryFormat
variable (f : BinaryFormat)

/-- How many patterns share a gap: those of one exponent. -/
def span : Nat := Nat.pow 2 f.fractionBits

theorem span_pos : 0 < f.span := Nat.pow_pos (by decide)

def exponentAt (n : Nat) : Int := f.minExponent + (n / f.span - 1 : Nat)

def significandAt (n : Nat) : Nat := if n / f.span = 0 then n % f.span else n % f.span + f.span

/-- The number with the pattern `n`, as if there were no largest exponent. -/
def value (n : Nat) : Rat := (f.significandAt n : Rat) * (2 : Rat) ^ f.exponentAt n

/-- How far the next number is away. -/
def gap (n : Nat) : Rat := (2 : Rat) ^ f.exponentAt n

def middle (n : Nat) : Rat := f.value n + f.gap n / 2

variable {f} {k m n : Nat}

theorem gap_pos : 0 < f.gap n := by
  unfold gap
  positivity

/-- A pattern is an exponent, counted from the least one, and a significand; with a higher exponent
the significand is not below the span. -/
theorem at_pattern (hm : k = 0 ∨ f.span ≤ m) (hlt : m < 2 * f.span) :
    f.exponentAt (k * f.span + m) = f.minExponent + k ∧
      f.significandAt (k * f.span + m) = m := by
  have hpos := f.span_pos
  have hdiv : (k * f.span + m) / f.span = k + m / f.span := by
    rw [Nat.add_comm, Nat.add_mul_div_right _ _ hpos, Nat.add_comm]
  have hmod : (k * f.span + m) % f.span = m % f.span := by
    rw [Nat.add_comm, Nat.add_mul_mod_self_right]
  unfold exponentAt significandAt
  rw [hdiv, hmod]
  by_cases hsmall : m < f.span
  · obtain rfl := hm.resolve_right (Nat.not_le_of_lt hsmall)
    rw [Nat.div_eq_of_lt hsmall, Nat.mod_eq_of_lt hsmall]
    exact ⟨rfl, rfl⟩
  · have hone : m / f.span = 1 := by
      apply Nat.div_eq_of_lt_le <;> omega
    have hrest : m % f.span + f.span = m := by
      have := Nat.div_add_mod m f.span
      rw [hone, Nat.mul_one] at this
      omega
    rw [hone, Nat.add_sub_cancel, if_neg (by omega), hrest]
    exact ⟨rfl, rfl⟩

theorem exists_pattern (n : Nat) :
    ∃ k m, n = k * f.span + m ∧ (k = 0 ∨ f.span ≤ m) ∧ m < 2 * f.span := by
  have hpos := f.span_pos
  have hsplit := Nat.div_add_mod n f.span
  have hrest := Nat.mod_lt n hpos
  rcases Nat.eq_zero_or_pos (n / f.span) with hzero | hnext
  · rw [hzero] at hsplit
    exact ⟨0, n, by omega, .inl rfl, by omega⟩
  · obtain ⟨k, hk⟩ := Nat.exists_eq_add_of_le hnext
    refine ⟨k, n % f.span + f.span, ?_, .inr (by omega), by omega⟩
    rw [hk] at hsplit
    refine hsplit.symm.trans ?_
    generalize n % f.span = rest
    ring

/-- The first pattern of the next exponent may be written with this one. -/
theorem value_pattern (hm : k = 0 ∨ f.span ≤ m) (hle : m ≤ 2 * f.span) :
    f.value (k * f.span + m) = m * (2 : Rat) ^ (f.minExponent + k) := by
  unfold value
  rcases Nat.lt_or_eq_of_le hle with hlt | rfl
  · obtain ⟨hexponent, hsignificand⟩ := at_pattern hm hlt
    rw [hexponent, hsignificand]
  · have hpos := f.span_pos
    obtain ⟨hexponent, hsignificand⟩ :=
      at_pattern (f := f) (k := k + 1) (m := f.span) (.inr (Nat.le_refl _)) (by omega)
    rw [show k * f.span + 2 * f.span = (k + 1) * f.span + f.span by ring, hexponent, hsignificand]
    push_cast
    rw [← add_assoc, zpow_add_one₀ two_ne_zero]
    ring

theorem value_succ (n : Nat) : f.value (n + 1) = f.value n + f.gap n := by
  obtain ⟨k, m, rfl, hm, hlt⟩ := f.exists_pattern n
  rw [Nat.add_assoc, value_pattern (hm.imp_right fun h => Nat.le_succ_of_le h) hlt,
    value_pattern hm hlt.le, gap, (at_pattern hm hlt).1]
  push_cast
  ring

theorem value_strictMono : StrictMono f.value :=
  strictMono_nat_of_lt_succ fun n => by
    rw [value_succ]
    exact lt_add_of_pos_right _ gap_pos

theorem middle_lt_value (h : k < n) : f.middle k < f.value n := by
  have hnext : f.value (k + 1) ≤ f.value n := value_strictMono.monotone h
  have hgap : 0 < f.gap k := gap_pos
  rw [value_succ] at hnext
  unfold middle
  linarith

theorem value_lt_middle (n : Nat) : f.value n < f.middle n := by
  have hgap : 0 < f.gap n := gap_pos
  unfold middle
  linarith

theorem middle_strictMono : StrictMono f.middle := fun _ n h =>
  (middle_lt_value h).trans (value_lt_middle n)

variable (f) in
/-- A rational from the middle of the gap before a pattern up to the middle of the gap behind it;
both belong to the pattern only if it is even. -/
structure Rounds (x : Rat) (n : Nat) : Prop where
  below : x ≤ f.middle n
  above : ∀ k, k + 1 = n → f.middle k ≤ x
  even : (x = f.middle n ∨ ∃ k, k + 1 = n ∧ f.middle k = x) → n % 2 = 0

namespace Rounds
variable {x : Rat}

/-- A pattern is not above another one exactly where the rational is not behind the other's gap. -/
theorem le_iff (h : f.Rounds x n) (k : Nat) : n ≤ k ↔ x < f.middle k ∨ x = f.middle k ∧ k % 2 = 0 := by
  constructor
  · intro hle
    rcases Nat.lt_or_eq_of_le hle with hlt | rfl
    · exact .inl (h.below.trans_lt (middle_strictMono hlt))
    · rcases h.below.lt_or_eq with hlt | heq
      · exact .inl hlt
      · exact .inr ⟨heq, h.even (.inl heq)⟩
  · intro hx
    by_contra hlt
    obtain ⟨j, rfl⟩ := Nat.exists_eq_succ_of_ne_zero (Nat.ne_zero_of_lt (Nat.lt_of_not_le hlt))
    have hkj : k ≤ j := Nat.le_of_lt_succ (Nat.lt_of_not_le hlt)
    have hmiddle : f.middle k ≤ f.middle j := middle_strictMono.monotone hkj
    have habove := h.above j rfl
    rcases hx with hx | ⟨hx, hparity⟩
    · exact absurd (hmiddle.trans habove) (not_le_of_gt hx)
    · have hsame : f.middle j = f.middle k := le_antisymm (habove.trans hx.le) hmiddle
      have hjk : j = k := middle_strictMono.injective hsame
      have heven := h.even (.inr ⟨j, rfl, by rw [hsame, hx]⟩)
      omega

/-- No other number is nearer, and if another one is as near, the pattern is even. -/
theorem nearest (h : f.Rounds x n) (k : Nat) : |x - f.value n| ≤ |x - f.value k| ∧
    (k ≠ n → |x - f.value k| = |x - f.value n| → n % 2 = 0) := by
  rcases Nat.lt_trichotomy n k with hlt | rfl | hlt
  · -- the other number is behind the gap
    have hnext : f.value (n + 1) ≤ f.value k := value_strictMono.monotone hlt
    rw [value_succ] at hnext
    have hbelow := h.below
    have hgap : 0 < f.gap n := gap_pos
    have hx : x - f.value k < 0 := by
      unfold middle at hbelow
      linarith
    rw [abs_of_neg hx]
    by_cases hside : f.value n ≤ x
    · rw [abs_of_nonneg (sub_nonneg.mpr hside)]
      refine ⟨by unfold middle at hbelow; linarith, fun _ htie => h.even (.inl ?_)⟩
      unfold middle at hbelow ⊢
      linarith
    · rw [abs_of_neg (by linarith)]
      exact ⟨by linarith, fun _ htie => by linarith⟩
  · exact ⟨le_rfl, fun hne => absurd rfl hne⟩
  · -- the other number is before the gap that ends here
    obtain ⟨j, rfl⟩ := Nat.exists_eq_succ_of_ne_zero (Nat.ne_zero_of_lt hlt)
    have hbefore : f.value k ≤ f.value j := value_strictMono.monotone (Nat.le_of_lt_succ hlt)
    have habove := h.above j rfl
    have hgap : 0 < f.gap j := gap_pos
    have hsucc : f.value (j + 1) = f.value j + f.gap j := value_succ j
    have hx : 0 < x - f.value k := by
      unfold middle at habove
      linarith
    rw [abs_of_pos hx, Nat.succ_eq_add_one]
    by_cases hside : x ≤ f.value (j + 1)
    · rw [abs_of_nonpos (sub_nonpos.mpr hside)]
      refine ⟨by unfold middle at habove; linarith, fun _ htie => h.even (.inr ⟨j, rfl, ?_⟩)⟩
      unfold middle at habove ⊢
      linarith
    · rw [abs_of_pos (by linarith)]
      exact ⟨by linarith, fun _ htie => by linarith⟩

end Rounds

/-- Rounding, as if there were no largest exponent. -/
def pattern (f : BinaryFormat) (x : Rat) : Nat :=
  let q := max f.minExponent (Binary.leadingExponent x - f.fractionBits)
  let scaled := x * (2 : Rat) ^ (-q)
  (q - f.minExponent).toNat * f.span + Binary.nearestEven scaled.num.natAbs scaled.den

theorem roundMagnitude_eq {x : Rat} (hx : x ≠ 0) :
    Binary.roundMagnitude f x = min f.infinity (f.pattern x) := by
  unfold Binary.roundMagnitude
  rw [if_neg hx]
  rfl

theorem le_gap_pattern (hm : k = 0 ∨ f.span ≤ m) (hle : m ≤ 2 * f.span) :
    (2 : Rat) ^ (f.minExponent + k) ≤ f.gap (k * f.span + m) := by
  unfold gap
  rcases Nat.lt_or_eq_of_le hle with hlt | rfl
  · rw [(at_pattern hm hlt).1]
  · have hpos := f.span_pos
    rw [show k * f.span + 2 * f.span = (k + 1) * f.span + f.span by ring,
      (at_pattern (f := f) (k := k + 1) (m := f.span) (.inr (Nat.le_refl _)) (by omega)).1]
    apply zpow_le_zpow_right₀ one_le_two
    omega

/-- The gap before a pattern is as wide as its unit, unless the pattern is the first one of an
exponent. -/
theorem gap_before_pattern (hm : k = 0 ∨ f.span < m) (hle : m ≤ 2 * f.span) {j : Nat}
    (hj : j + 1 = k * f.span + m) : f.gap j = (2 : Rat) ^ (f.minExponent + k) := by
  have hpos : 0 < m := by
    rcases hm with rfl | hlt
    · omega
    · exact Nat.zero_lt_of_lt hlt
  have hpattern : j = k * f.span + (m - 1) := by omega
  rw [gap, hpattern, (at_pattern (hm.imp_right fun h => Nat.le_sub_one_of_lt h) (by omega)).1]

theorem rounds_of_nearest (hspan : 2 ∣ f.span) {y : Rat} (hhigh : y < 2 * f.span)
    (hlow : k = 0 ∨ (f.span : Rat) ≤ y) (hle : 2 * y ≤ 2 * m + 1) (hge : 2 * (m : Rat) ≤ 2 * y + 1)
    (heven : 2 * y = 2 * m + 1 ∨ 2 * (m : Rat) = 2 * y + 1 → m % 2 = 0) :
    f.Rounds (y * (2 : Rat) ^ (f.minExponent + k)) (k * f.span + m) := by
  have hmost : m ≤ 2 * f.span := by
    have hbound : (2 * m : Rat) < 4 * f.span + 1 := by linarith
    have hbound : 2 * m < 4 * f.span + 1 := by exact_mod_cast hbound
    omega
  have hleast : k = 0 ∨ f.span ≤ m := by
    refine hlow.imp_right fun h => ?_
    have hbound : (2 * f.span : Rat) ≤ 2 * m + 1 := by linarith
    have hbound : 2 * f.span ≤ 2 * m + 1 := by exact_mod_cast hbound
    omega
  have hparity : (k * f.span + m) % 2 = m % 2 := by
    obtain ⟨half, hhalf⟩ := hspan
    rw [hhalf, Nat.mul_left_comm, Nat.mul_add_mod]
  have hvalue := value_pattern hleast hmost
  have hgap := le_gap_pattern hleast hmost
  have hbefore (j : Nat) (hj : j + 1 = k * f.span + m) : (m : Rat) ≤ y ∨
      f.gap j = (2 : Rat) ^ (f.minExponent + k) := by
    by_cases hfirst : k ≠ 0 ∧ m = f.span
    · rw [hfirst.2]
      exact .inl (hlow.resolve_left hfirst.1)
    · refine .inr (gap_before_pattern ?_ hmost hj)
      omega
  have hlast (j : Nat) (hj : j + 1 = k * f.span + m) : f.middle j + f.gap j / 2 =
      m * (2 : Rat) ^ (f.minExponent + k) := by
    rw [← hvalue, ← hj, value_succ, middle]
    ring
  have hpos (j : Nat) : 0 < f.gap j := gap_pos
  have hunit : (0 : Rat) < 2 ^ (f.minExponent + k) := by positivity
  generalize (2 : Rat) ^ (f.minExponent + k) = unit at *
  refine ⟨?_, fun j hj => ?_, fun h => ?_⟩
  · unfold middle
    rw [hvalue]
    nlinarith
  · have hlast := hlast j hj
    have hpos := hpos j
    rcases hbefore j hj with hle | heq
    · nlinarith
    · rw [heq] at hlast
      nlinarith
  · rw [hparity]
    apply heven
    rcases h with h | ⟨j, hj, h⟩
    · left
      unfold middle at h
      rw [hvalue] at h
      nlinarith
    · right
      have hlast := hlast j hj
      have hpos := hpos j
      rcases hbefore j hj with hle | heq
      · nlinarith
      · rw [heq] at hlast
        nlinarith

/-- The significand is rounded where the leading bit of the rational or the least exponent puts the
unit. -/
theorem rounds_pattern (hf : 2 ≤ f.precision) {x : Rat} (hx : 0 < x) :
    f.Rounds x (f.pattern x) := by
  obtain ⟨hlow, hhigh⟩ := Binary.leadingExponent_bounds hx
  have hbits : 1 ≤ f.fractionBits := Nat.le_sub_of_add_le hf
  have hspan : (f.span : Rat) = (2 : Rat) ^ (f.fractionBits : Int) := by
    rw [zpow_natCast]
    exact_mod_cast rfl
  have hdvd : 2 ∣ f.span := dvd_pow_self 2 (Nat.ne_of_gt hbits)
  unfold pattern
  dsimp only
  have hleast : f.minExponent ≤ max f.minExponent (Binary.leadingExponent x - f.fractionBits) :=
    le_max_left _ _
  have hlead : Binary.leadingExponent x - f.fractionBits ≤
    max f.minExponent (Binary.leadingExponent x - f.fractionBits) := le_max_right _ _
  have hone := max_choice f.minExponent (Binary.leadingExponent x - f.fractionBits)
  generalize max f.minExponent (Binary.leadingExponent x - f.fractionBits) = q at *
  have hk : f.minExponent + ((q - f.minExponent).toNat : Int) = q := by omega
  have hy : 0 < x * (2 : Rat) ^ (-q) := by positivity
  have hback : x * (2 : Rat) ^ (-q) * 2 ^ (f.minExponent + ((q - f.minExponent).toNat : Int)) = x := by
    rw [hk, mul_assoc, ← zpow_add₀ two_ne_zero, neg_add_cancel, zpow_zero, mul_one]
  have hhigh : x * (2 : Rat) ^ (-q) < 2 * f.span := by
    calc x * (2 : Rat) ^ (-q)
        < 2 ^ (Binary.leadingExponent x + 1) * 2 ^ (-q) := by gcongr
      _ = 2 ^ (Binary.leadingExponent x + 1 - q) := by
        rw [← zpow_add₀ two_ne_zero, sub_eq_add_neg]
      _ ≤ 2 ^ ((f.fractionBits : Int) + 1) := by
        apply zpow_le_zpow_right₀ one_le_two
        omega
      _ = 2 * f.span := by rw [hspan, zpow_add_one₀ two_ne_zero, mul_comm]
  have hlow : (q - f.minExponent).toNat = 0 ∨ (f.span : Rat) ≤ x * (2 : Rat) ^ (-q) := by
    rcases hone with hq | hq
    · left
      omega
    · right
      calc (f.span : Rat) = 2 ^ Binary.leadingExponent x * 2 ^ (-q) := by
            rw [hspan, ← zpow_add₀ two_ne_zero]
            exact congrArg (fun e : Int => (2 : Rat) ^ e) (by omega)
        _ ≤ x * (2 : Rat) ^ (-q) := by gcongr
  obtain ⟨hle, hge, heven⟩ := Binary.nearestEven_rat hy.le
  have hrounds := rounds_of_nearest hdvd hhigh hlow hle hge heven
  rwa [hback] at hrounds

end BinaryFormat

end RecordMapper
