/-!
# Numerals

Digit lists, most significant digit first: their value, the digits of a number in a field of
fixed width, and the digits of a number without leading zeros. Decimal text, hexadecimal text and
byte strings are all numerals in this sense.
-/

namespace RecordMapper.Numeral

/-- The number that a digit list denotes in the given base. -/
def value (base : Nat) (digits : List Nat) : Nat := digits.foldl (fun acc d => acc * base + d) 0

/-- The last `width` digits of `n`. -/
def fixed (base : Nat) : (width n : Nat) → List Nat
  | 0, _ => []
  | width + 1, n => fixed base width (n / base) ++ [n % base]

/-- The decimal digits of `n` without leading zeros; zero has one digit. -/
def decimal (n : Nat) : List Nat :=
  if n < 10 then [n] else decimal (n / 10) ++ [n % 10]
termination_by n

/-- Value of a digit character, letters of both cases counting from ten. -/
def digit? (base : Nat) (c : Char) : Option Nat :=
  let found :=
    if '0' ≤ c ∧ c ≤ '9' then some (c.toNat - '0'.toNat)
    else if 'a' ≤ c ∧ c ≤ 'z' then some (c.toNat - 'a'.toNat + 10)
    else if 'A' ≤ c ∧ c ≤ 'Z' then some (c.toNat - 'A'.toNat + 10)
    else none
  found.filter (· < base)

def digits? (base : Nat) (cs : List Char) : Option (List Nat) :=
  if cs.isEmpty then none else cs.mapM (digit? base)

def natural? (cs : List Char) : Option Nat := (digits? 10 cs).map (value 10)

def isDigit (c : Char) : Bool := '0' ≤ c && c ≤ '9'

def chars (digits : List Nat) : List Char := digits.map Nat.digitChar

def ofNat (n : Nat) : String := String.ofList (chars (decimal n))

def ofInt (n : Int) : String := if n < 0 then "-" ++ ofNat n.natAbs else ofNat n.natAbs

/-- The integer denoted by ASCII digits after at most one sign. -/
def integer? : List Char → Option Int
  | '-' :: rest => (natural? rest).map fun n => -(n : Int)
  | '+' :: rest => (natural? rest).map fun n => (n : Int)
  | rest => (natural? rest).map fun n => (n : Int)

@[simp] theorem length_fixed (base width n : Nat) : (fixed base width n).length = width := by
  induction width generalizing n with
  | zero => rfl
  | succ width ih => simp [fixed, ih]

theorem value_append_singleton (base d : Nat) (digits : List Nat) :
    value base (digits ++ [d]) = value base digits * base + d := by
  simp [value, List.foldl_append]

/-- A field of fixed width keeps the number modulo what fits into it. -/
theorem value_fixed (base width n : Nat) :
    value base (fixed base width n) = n % Nat.pow base width := by
  induction width generalizing n with
  | zero => exact (Nat.mod_one n).symm
  | succ width ih =>
    have hsucc : Nat.pow base (width + 1) = Nat.pow base width * base := rfl
    rw [fixed, value_append_singleton, ih, hsucc, Nat.mul_comm (Nat.pow base width) base,
      Nat.mod_mul, Nat.mul_comm base]
    omega

@[simp] theorem value_decimal (n : Nat) : value 10 (decimal n) = n := by
  fun_induction decimal n with
  | case1 n h => simp [value]
  | case2 n h ih => rw [value_append_singleton, ih]; omega

theorem lt_of_mem_decimal {n d : Nat} (h : d ∈ decimal n) : d < 10 := by
  fun_induction decimal n with
  | case1 n hn => simp_all
  | case2 n hn ih =>
    rcases List.mem_append.1 h with h | h
    · exact ih h
    · simp at h; omega

end RecordMapper.Numeral
