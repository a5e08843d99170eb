import RecordMapper.Binary.Basic
import RecordMapper.Numeral

/-!
# The shortest decimal text of a binary number

A finite number is written with the fewest decimal digits that read back as the number, of those
the ones nearest to it, and in a tie the larger. The digits are always written positionally:
there is no exponent, and no fraction part where none is needed.
-/

set_option autoImplicit false

namespace RecordMapper

/-- The decimal number `coefficient * 10 ^ exponent`. -/
structure Grid where
  coefficient : Nat
  exponent : Int
deriving DecidableEq, Repr

namespace Grid

def toRat (g : Grid) : Rat := (g.coefficient : Rat) * (10 : Rat) ^ g.exponent

def positional (g : Grid) : List Char :=
  let digits := Numeral.decimal g.coefficient
  if 0 ≤ g.exponent then
    Numeral.chars (if g.coefficient = 0 then [0]
      else digits ++ List.replicate g.exponent.toNat 0)
  else
    let places := g.exponent.natAbs
    let padded := List.replicate (places + 1 - digits.length) 0 ++ digits
    let whole := padded.take (padded.length - places)
    let part := ((padded.drop (padded.length - places)).reverse.dropWhile (· = 0)).reverse
    Numeral.chars whole ++ (if part.isEmpty then [] else '.' :: Numeral.chars part)

end Grid

namespace Binary

variable {f : BinaryFormat}

/-- The rationals that round to the positive finite number `x`: the midpoints to its neighbours,
which belong to it exactly when its significand is even. -/
structure Interval where
  low : Rat
  high : Rat
  closed : Bool

def Interval.contains (i : Interval) (x : Rat) : Bool :=
  if i.closed then i.low ≤ x && x ≤ i.high else i.low < x && x < i.high

def interval (x : Binary f) : Interval :=
  let m := x.significand
  let unit := (2 : Rat) ^ x.exponent
  let below : Rat :=
    if m = Nat.pow 2 f.fractionBits ∧ f.minExponent < x.exponent then 1 / 4 else 1 / 2
  ⟨(m - below) * unit, (m + 1 / 2) * unit, m % 2 = 0⟩

/-- The number `k` with `10 ^ (k - 1) ≤ v < 10 ^ k`, for positive `v`. -/
def decimalExponent (v : Rat) : Int :=
  if 1 ≤ v then (Numeral.decimal v.floor.natAbs).length
  else
    let j := (Numeral.decimal (1 / v).floor.natAbs).length - 1
    if v * (10 : Rat) ^ j < 1 then -(j : Int) else 1 - j

/-- The point of the grid of `10 ^ e` that lies in the interval of `v`, the nearer of the two
neighbours of `v`, the upper one in a tie. -/
def neighbour? (i : Interval) (v : Rat) (e : Int) : Option Grid :=
  let below := (v * (10 : Rat) ^ (-e)).floor.natAbs
  let lower : Grid := ⟨below, e⟩
  let upper : Grid := ⟨below + 1, e⟩
  match i.contains lower.toRat, i.contains upper.toRat with
  | true, true => if upper.toRat - v ≤ v - lower.toRat then some upper else some lower
  | true, false => some lower
  | false, true => some upper
  | false, false => none

def shortestFrom (i : Interval) (v : Rat) (top : Int) : (digits fuel : Nat) → Grid
  | digits, 0 => ⟨(v * (10 : Rat) ^ (digits - top : Int)).floor.natAbs, top - digits⟩
  | digits, fuel + 1 =>
    match neighbour? i v (top - digits) with
    | some g => g
    | none => shortestFrom i v top (digits + 1) fuel

/-- The shortest decimal that reads back as the finite number `x`, apart from the sign.
Seventeen digits are enough for both formats. -/
def shortest (x : Binary f) : Grid :=
  if x.isZero then ⟨0, 0⟩ else shortestFrom x.interval x.abs (decimalExponent x.abs) 1 17

def text (x : Binary f) : String :=
  if x.isNaN then "NaN"
  else
    let sign := if x.isNegative then "-" else ""
    if x.isFinite then sign ++ String.ofList x.shortest.positional else sign ++ "inf"

end Binary

end RecordMapper
