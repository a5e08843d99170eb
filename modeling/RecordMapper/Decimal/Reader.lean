import RecordMapper.Decimal.Basic

/-!
# Reading decimal text

A decimal is read from an optional sign and digits with at most one point; underscores may stand
anywhere after the first digit. Digits are taken into the mantissa as long as it fits into 96 bits
and the scale into 28 places. The first fraction digit that does not fit rounds the mantissa, half
up, and the remaining digits are only checked. A short mantissa whose places are used up is
closed by an underscore: the digits behind it do not round. An exponent of at most 28 moves the
point; places beyond the 28th are rounded, and a mantissa that outgrows 96 bits is refused.
-/

set_option autoImplicit false

namespace RecordMapper.Decimal

/-- What has been read: the mantissa, the places after the point, whether the point has been
passed and whether a digit has been seen. -/
structure Scan where
  mantissa : Nat := 0
  scale : Nat := 0
  pointed : Bool := false
  started : Bool := false

def Scan.finish (s : Scan) (negative : Bool) : Option Decimal :=
  if s.started then ofParts? (negative && s.mantissa != 0) s.mantissa s.scale else none

/-- The mantissa rounded by the first digit left out. A mantissa that outgrows 96 bits gives up
its last place. -/
def Scan.rounded (s : Scan) (digit : Nat) : Option Scan :=
  if digit < 5 then some s
  else if s.mantissa + 1 < Nat.pow 2 96 then some { s with mantissa := s.mantissa + 1 }
  else if s.scale = 0 then none
  else some { s with mantissa := (s.mantissa + 5) / 10, scale := s.scale - 1 }

def onlyDigits (cs : List Char) : Bool := cs.all fun c => Numeral.isDigit c || c = '_'

def Scan.hasRoom (s : Scan) (digit : Nat) : Bool :=
  s.mantissa * 10 + digit < Nat.pow 2 96 && !(s.pointed && s.scale == 28)

/-- Whether all places are used up by a mantissa short enough for 64 bits. -/
def Scan.isClosed (s : Scan) : Bool :=
  s.pointed && s.scale == 28 && s.mantissa / 10 < (Nat.pow 2 64 - 1) / 10 - 255

def Scan.push (s : Scan) (digit : Nat) : Scan :=
  { s with
    mantissa := s.mantissa * 10 + digit
    scale := if s.pointed then s.scale + 1 else 0
    started := true }

def scan (negative : Bool) : Scan → List Char → Option Decimal
  | s, [] => s.finish negative
  | s, c :: rest =>
    match Numeral.digit? 10 c with
    | some d =>
      if s.hasRoom d then scan negative (s.push d) rest
      else if s.pointed && onlyDigits rest then (s.rounded d).bind (·.finish negative)
      else none
    | none =>
      if c = '.' && !s.pointed then scan negative { s with pointed := true } rest
      else if c = '_' && s.started then
        if s.isClosed then (if onlyDigits rest then s.finish negative else none)
        else scan negative s rest
      else none

/-- The decimal that a whole text without exponent denotes. Zero loses its sign. -/
def ofPlain? : List Char → Option Decimal
  | '-' :: rest => scan true {} rest
  | '+' :: rest => scan false {} rest
  | rest => scan false {} rest

/-- The digits of an exponent of at most 28, which may have a plus sign. -/
def exponent? (cs : List Char) : Option Nat :=
  let digits :=
    match cs with
    | '+' :: rest => rest
    | rest => rest
  (Numeral.natural? digits).filter (· ≤ 28)

/-- `d / 10 ^ n`: the scale grows. Places beyond the 28th are rounded half up, away from zero; what
vanishes keeps its sign. -/
def shrink (d : Decimal) (n : Nat) : Option Decimal :=
  if d.scale + n ≤ 28 then ofParts? d.negative d.mantissa (d.scale + n)
  else
    let unit := Nat.pow 10 (d.scale + n - 28)
    ofParts? d.negative ((d.mantissa + unit / 2) / unit) 28

/-- `d * 10 ^ n`: the scale is used up, then the mantissa grows. -/
def grow (d : Decimal) (n : Nat) : Option Decimal :=
  if n ≤ d.scale then ofParts? d.negative d.mantissa (d.scale - n)
  else ofParts? d.negative (d.mantissa * Nat.pow 10 (n - d.scale)) 0

def ofText? (cs : List Char) : Option Decimal :=
  let isMark (c : Char) : Bool := c = 'e' || c = 'E'
  let base := ofPlain? (cs.takeWhile fun c => !isMark c)
  match cs.dropWhile fun c => !isMark c with
  | [] => base
  | [_] => none
  | _ :: '-' :: digits => do (← base).shrink (← exponent? digits)
  | _ :: digits => do (← base).grow (← exponent? digits)

end RecordMapper.Decimal
