import RecordMapper.Numeral

/-!
# Decimal numbers of 96 bits

A decimal is a sign, a mantissa below `2 ^ 96` and a scale of at most 28 places. The scale is part
of the number: `1.50` keeps its two places, although it equals `1.5`.
-/

set_option autoImplicit false

namespace RecordMapper

/-- The number `±mantissa / 10 ^ scale`. -/
structure Decimal where
  negative : Bool
  mantissa : Nat
  scale : Nat
  mantissa_lt : mantissa < Nat.pow 2 96 := by omega
  scale_le : scale ≤ 28 := by omega
deriving DecidableEq

namespace Decimal

def ofParts? (negative : Bool) (mantissa scale : Nat) : Option Decimal :=
  if hm : mantissa < Nat.pow 2 96 then
    if hs : scale ≤ 28 then some ⟨negative, mantissa, scale, hm, hs⟩ else none
  else none

def zero : Decimal := ⟨false, 0, 0, by decide, by decide⟩

def ofInt64 (n : Int64) : Decimal :=
  ⟨n.toInt < 0, n.toInt.natAbs, 0, by
    have lower := n.le_toInt
    have upper := n.toInt_lt
    have bound : Nat.pow 2 96 = 79228162514264337593543950336 := rfl
    omega, by decide⟩

def toRat (d : Decimal) : Rat :=
  let magnitude := mkRat d.mantissa (Nat.pow 10 d.scale)
  if d.negative then -magnitude else magnitude

/-- Whether the value is zero, whatever the sign. -/
def isZero (d : Decimal) : Bool := d.mantissa = 0

/-- Equality of values; `1.5` and `1.50` are the same. -/
def same (a b : Decimal) : Bool := a.toRat = b.toRat

/-- The integer part of the magnitude. -/
def whole (d : Decimal) : Nat := d.mantissa / Nat.pow 10 d.scale

/-- The numerator of the fraction part of the magnitude. -/
def part (d : Decimal) : Nat := d.mantissa % Nat.pow 10 d.scale

def truncated (d : Decimal) : Int := if d.negative then -(d.whole : Int) else d.whole

/-- All places of the scale, and at least one digit before the point. -/
def text (d : Decimal) : String :=
  let sign := if d.negative then "-" else ""
  let places := if d.scale = 0 then []
    else '.' :: Numeral.chars (Numeral.fixed 10 d.scale d.part)
  sign ++ Numeral.ofNat d.whole ++ String.ofList places

theorem whole_part (d : Decimal) : d.whole * Nat.pow 10 d.scale + d.part = d.mantissa := by
  have h := Nat.div_add_mod d.mantissa (Nat.pow 10 d.scale)
  rw [whole, part, Nat.mul_comm]
  exact h

end Decimal

end RecordMapper
