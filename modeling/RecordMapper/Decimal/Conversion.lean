import RecordMapper.Binary.Basic
import RecordMapper.Decimal.Basic

/-!
# Decimals and binary numbers

A binary number becomes a decimal by moving its power of two into a power of ten, one factor at a
time, inside 96 bits; digits that do not fit are dropped with rounding, and then as many digits
as the binary number cannot vouch for. A decimal becomes a binary number by adding its integer
part and its fraction, rounded to the places of the scale.
-/

set_option autoImplicit false

namespace RecordMapper.Decimal

/-- A positive number `mantissa * 2 ^ twos * 10 ^ tens` on its way from binary to decimal. -/
structure Rescaling where
  mantissa : Nat
  tens : Int

namespace Rescaling

/-- Divides by five `n` times, in favour of powers of ten: an even mantissa is halved, else a
mantissa with room is multiplied by five, else the last bit is given up. -/
def divideFives (r : Rescaling) : Nat → Rescaling
  | 0 => r
  | n + 1 =>
    let next : Rescaling :=
      if r.mantissa % 2 = 0 then ⟨r.mantissa / 2, r.tens + 1⟩
      else if r.mantissa * 5 < Nat.pow 2 96 then { r with mantissa := r.mantissa * 5 }
      else ⟨r.mantissa / 2, r.tens + 1⟩
    next.divideFives n

/-- Multiplies by five `n` times, in favour of powers of ten: a mantissa with room is doubled,
else divided by five. A number far too large for 96 bits is refused. -/
def multiplyFives (r : Rescaling) (n : Nat) : Option Rescaling :=
  match n with
  | 0 => some r
  | n + 1 =>
    if r.mantissa < Nat.pow 2 95 then multiplyFives ⟨r.mantissa * 2, r.tens - 1⟩ n
    else if (n + 1 : Int) < r.tens * 2 then none
    else multiplyFives { r with mantissa := r.mantissa / 5 } n

def expanded (r : Rescaling) : Option Rescaling :=
  if r.tens ≤ 0 then some r
  else
    let mantissa := r.mantissa * Nat.pow 10 r.tens.toNat
    if mantissa < Nat.pow 2 96 then some ⟨mantissa, 0⟩ else none

def dropDigit (r : Rescaling) : Rescaling :=
  let shorter := r.mantissa / 10
  ⟨if r.mantissa % 10 < 5 then shorter else shorter + 1, r.tens + 1⟩

/-- Drops the digits beyond 28 places. A mantissa that vanishes leaves a plain zero. -/
def withinScale (r : Rescaling) : Nat → Rescaling
  | 0 => r
  | n + 1 =>
    if r.mantissa / 10 = 0 then ⟨0, 0⟩ else r.dropDigit.withinScale n

def withinPrecision (bound : Nat) (r : Rescaling) : Nat → Rescaling
  | 0 => r
  | n + 1 => if r.mantissa < bound then r else withinPrecision bound r.dropDigit n

def withoutZeros (r : Rescaling) : Nat → Rescaling
  | 0 => r
  | n + 1 =>
    if r.mantissa % 10 = 0 then withoutZeros ⟨r.mantissa / 10, r.tens + 1⟩ n else r

end Rescaling

/-- The decimal nearest to what the binary number `x` can vouch for; `none` if it is not finite or
too large. A mantissa of `bound` or more is taken to have digits to spare. -/
def ofBinary? {f : BinaryFormat} (bound : Nat) (x : Binary f) : Option Decimal :=
  if !x.isFinite then none
  else if x.isZero then ofParts? x.isNegative 0 0
  else do
    let start : Rescaling := ⟨x.significand, x.exponent⟩
    let moved ←
      if x.exponent < 0 then some (start.divideFives x.exponent.natAbs)
      else start.multiplyFives x.exponent.natAbs
    let whole ← moved.expanded
    let scaled := whole.withinScale (-28 - whole.tens).toNat
    let precise := scaled.withinPrecision bound scaled.tens.natAbs
    let short := precise.withoutZeros precise.tens.natAbs
    ofParts? x.isNegative short.mantissa short.tens.natAbs

def ofBinary64? (x : Binary64) : Option Decimal := ofBinary? (Nat.pow 2 52) x

def ofBinary32? (x : Binary32) : Option Decimal := ofBinary? (Nat.pow 2 24) x

def toBinary64 (d : Decimal) : Binary64 :=
  let whole := Binary.ofInt .double d.whole
  if d.scale = 0 then Binary.ofInt .double d.truncated
  else
    let part := (Binary.ofInt .double d.part).div (Binary.ofInt .double (Nat.pow 10 d.scale))
    let size :=
      if part.isZero then whole
      else
        let places := (Binary.ofInt .double 10).pow d.scale
        (((whole.add part).mul places).nearest).div places
    if d.negative then size.neg else size

end RecordMapper.Decimal
