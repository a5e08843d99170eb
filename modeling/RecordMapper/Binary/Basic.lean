/-!
# Binary floating point numbers

The interchange formats of 32 and 64 bits as bit patterns: sign, exponent field and fraction
field. A finite number is `significand * 2 ^ exponent`; every computation is made on that exact
rational and rounded once, to the nearest number of the format and to an even significand in
a tie.

This module does NOT use the machine's own floating point arithmetic.
-/

set_option autoImplicit false

namespace RecordMapper

/-- A binary format: bits of the significand, the implied leading one counted, and bits of the
exponent field. -/
structure BinaryFormat where
  precision : Nat
  exponentBits : Nat
deriving DecidableEq, Repr

namespace BinaryFormat

def single : BinaryFormat := ⟨24, 8⟩

def double : BinaryFormat := ⟨53, 11⟩

def width (f : BinaryFormat) : Nat := f.precision + f.exponentBits

def fractionBits (f : BinaryFormat) : Nat := f.precision - 1

def minExponent (f : BinaryFormat) : Int := 3 - Int.pow 2 (f.exponentBits - 1) - f.precision

/-- The pattern of positive infinity; the patterns above it are no numbers. -/
def infinity (f : BinaryFormat) : Nat := (Nat.pow 2 f.exponentBits - 1) * Nat.pow 2 f.fractionBits

def signWeight (f : BinaryFormat) : Nat := Nat.pow 2 (f.width - 1)

end BinaryFormat

structure Binary (f : BinaryFormat) where
  bits : BitVec f.width
deriving DecidableEq

abbrev Binary32 := Binary .single
abbrev Binary64 := Binary .double

namespace Binary

variable {f : BinaryFormat}

def ofMagnitude (f : BinaryFormat) (negative : Bool) (magnitude : Nat) : Binary f :=
  ⟨BitVec.ofNat _ ((if negative then f.signWeight else 0) + magnitude)⟩

def zero (f : BinaryFormat) : Binary f := ofMagnitude f false 0

def undefined (f : BinaryFormat) : Binary f :=
  ofMagnitude f false (f.infinity + Nat.pow 2 (f.fractionBits - 1))

def infinite (f : BinaryFormat) (negative : Bool) : Binary f := ofMagnitude f negative f.infinity

def isNegative (x : Binary f) : Bool := f.signWeight ≤ x.bits.toNat

/-- Exponent and fraction field together; for numbers of one sign it grows with the number. -/
def magnitude (x : Binary f) : Nat := x.bits.toNat % f.signWeight

def isNaN (x : Binary f) : Bool := f.infinity < x.magnitude

def isFinite (x : Binary f) : Bool := x.magnitude < f.infinity

def isZero (x : Binary f) : Bool := x.magnitude = 0

def neg (x : Binary f) : Binary f := ofMagnitude f (!x.isNegative) x.magnitude

def exponentField (x : Binary f) : Nat := x.magnitude / Nat.pow 2 f.fractionBits

def fraction (x : Binary f) : Nat := x.magnitude % Nat.pow 2 f.fractionBits

/-- The integer `m` of a finite number `m * 2 ^ q`. -/
def significand (x : Binary f) : Nat :=
  if x.exponentField = 0 then x.fraction else x.fraction + Nat.pow 2 f.fractionBits

def exponent (x : Binary f) : Int := f.minExponent + (x.exponentField - 1 : Nat)

def abs (x : Binary f) : Rat := (x.significand : Rat) * (2 : Rat) ^ x.exponent

def toRat (x : Binary f) : Rat := if x.isNegative then -x.abs else x.abs

/-- The comparison `=` of floating point: an undefined number equals nothing, the zeros are
equal. -/
def same (x y : Binary f) : Bool :=
  !x.isNaN && !y.isNaN && (x = y || x.isZero && y.isZero)

/-- The integer nearest to `num / den`, an even one in a tie. -/
def nearestEven (num den : Nat) : Nat :=
  let quotient := num / den
  let rest := num % den
  if 2 * rest < den then quotient
  else if den < 2 * rest then quotient + 1
  else quotient + quotient % 2

/-- The exponent of the leading bit of a positive rational: the `e` with `2 ^ e ≤ x < 2 ^ (e + 1)`. -/
def leadingExponent (x : Rat) : Int :=
  let e : Int := Nat.log2 x.num.natAbs - Nat.log2 x.den
  if (2 : Rat) ^ e ≤ x then e else e - 1

/-- The pattern of the number nearest to `x ≥ 0`, infinity if that is beyond the largest one. -/
def roundMagnitude (f : BinaryFormat) (x : Rat) : Nat :=
  if x = 0 then 0
  else
    let q := max f.minExponent (leadingExponent x - f.fractionBits)
    let scaled := x * (2 : Rat) ^ (-q)
    let m := nearestEven scaled.num.natAbs scaled.den
    min f.infinity ((q - f.minExponent).toNat * Nat.pow 2 f.fractionBits + m)

def round (f : BinaryFormat) (negative : Bool) (x : Rat) : Binary f :=
  ofMagnitude f negative (roundMagnitude f (if x < 0 then -x else x))

def ofRat (f : BinaryFormat) (x : Rat) : Binary f := round f (x < 0) x

def ofInt (f : BinaryFormat) (n : Int) : Binary f := ofRat f n

def truncated? (x : Binary f) : Option Int :=
  if x.isFinite then
    some (if x.isNegative then -x.abs.floor else x.abs.floor)
  else none

/-- The number rounded to format `g`. An undefined number keeps its sign and the leading bits of
its fraction and becomes a quiet one. -/
def convert (g : BinaryFormat) (x : Binary f) : Binary g :=
  if x.isNaN then
    let aligned := x.fraction * Nat.pow 2 g.fractionBits / Nat.pow 2 f.fractionBits
    let quiet := Nat.pow 2 (g.fractionBits - 1)
    ofMagnitude g x.isNegative (g.infinity + (aligned ||| quiet))
  else if x.isFinite then round g x.isNegative x.abs
  else infinite g x.isNegative

def add (x y : Binary f) : Binary f := ofRat f (x.toRat + y.toRat)

def mul (x y : Binary f) : Binary f := round f (x.isNegative != y.isNegative) (x.toRat * y.toRat)

def div (x y : Binary f) : Binary f := round f (x.isNegative != y.isNegative) (x.toRat / y.toRat)

def nearest (x : Binary f) : Binary f := round f x.isNegative ((x.abs + 1 / 2).floor : Int)

/-- The power `x ^ n` by repeated squaring, each product rounded. -/
def pow (x : Binary f) (n : Nat) : Binary f := go n x (ofInt f 1)
where
  go (n : Nat) (square acc : Binary f) : Binary f :=
    let acc := if n % 2 = 1 then acc.mul square else acc
    if n < 2 then acc else go (n / 2) (square.mul square) acc
  termination_by n

theorem same_comm (x y : Binary f) : x.same y = y.same x := by
  simp only [same, Bool.and_comm, eq_comm]

end Binary

end RecordMapper
