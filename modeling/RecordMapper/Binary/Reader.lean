import RecordMapper.Binary.Basic
import RecordMapper.Numeral
import RecordMapper.Text.Ascii

/-!
# Reading decimal text as a binary number

The numerals are an optional sign, digits with at most one point and at least one digit, and an
optional exponent; the words `inf`, `infinity` and `nan` are read in any case. A numeral denotes a
rational number and is read as the nearest binary number.
-/

set_option autoImplicit false

namespace RecordMapper

/-- An unsigned decimal numeral: `digits * 10 ^ exponent`. -/
structure DecimalNumeral where
  digits : List Nat
  exponent : Int
deriving DecidableEq, Repr

namespace DecimalNumeral

def mantissa (cs : List Char) : DecimalNumeral × List Char :=
  let digitsOf (cs : List Char) := cs.filterMap (Numeral.digit? 10)
  let whole := cs.takeWhile Numeral.isDigit
  match cs.dropWhile Numeral.isDigit with
  | '.' :: rest =>
    let part := rest.takeWhile Numeral.isDigit
    (⟨digitsOf whole ++ digitsOf part, -part.length⟩, rest.dropWhile Numeral.isDigit)
  | rest => (⟨digitsOf whole, 0⟩, rest)

def ofChars? (cs : List Char) : Option DecimalNumeral :=
  match mantissa cs with
  | (⟨[], _⟩, _) => none
  | (n, []) => some n
  | (n, c :: rest) =>
    if c = 'e' ∨ c = 'E' then
      (Numeral.integer? rest).map fun e => ⟨n.digits, n.exponent + e⟩
    else none

def coefficient (n : DecimalNumeral) : Nat := Numeral.value 10 n.digits

def toRat (n : DecimalNumeral) : Rat := (n.coefficient : Rat) * (10 : Rat) ^ n.exponent

/-- The nearest number of format `f`. A numeral whose leading digit stands far outside the range
of every format is recognised by its exponent, without computing the power of ten. -/
def toBinary (f : BinaryFormat) (negative : Bool) (n : DecimalNumeral) : Binary f :=
  let lead : Int := (Numeral.decimal n.coefficient).length + n.exponent
  if n.coefficient = 0 ∨ lead < -400 then Binary.round f negative 0
  else if 400 < lead then Binary.infinite f negative
  else Binary.round f negative n.toRat

end DecimalNumeral

namespace Binary

def ofUnsigned? (f : BinaryFormat) (negative : Bool) (cs : List Char) : Option (Binary f) :=
  match String.ofList (cs.map Char.toLower) with
  | "inf" | "infinity" => some (infinite f negative)
  | "nan" => some (if negative then (undefined f).neg else undefined f)
  | _ => (DecimalNumeral.ofChars? cs).map (·.toBinary f negative)

def ofText? (f : BinaryFormat) : List Char → Option (Binary f)
  | '-' :: rest => ofUnsigned? f true rest
  | '+' :: rest => ofUnsigned? f false rest
  | rest => ofUnsigned? f false rest

end Binary

end RecordMapper
