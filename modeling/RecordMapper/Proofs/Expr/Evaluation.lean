import RecordMapper.Proofs.Expr.Written

/-!
# Values of expressions

What a database makes of an expression whose values are numbers and texts. A comparison, a negation
or a connective is 0 or 1, and a value is true unless it is or reads as zero. How numerals are read,
how numbers and texts are ordered and what arithmetic does is left to an interpretation; only what
is compared with zero is fixed.
-/

set_option autoImplicit false

namespace RecordMapper

inductive Datum
  | number (q : Rat)
  | text (s : String)

namespace Datum

def ofBool (b : Bool) : Datum := .number (if b then 1 else 0)

def IsTruthValue (d : Datum) : Prop := ∃ b, d = ofBool b

end Datum

/-- Whether a comparison holds of two values that are in this order. -/
def Operator.admits : Operator → Ordering → Bool
  | eq, o => o = .eq
  | ne, o => o ≠ .eq
  | gt, o => o = .gt
  | ge, o => o ≠ .lt
  | lt, o => o = .lt
  | le, o => o ≠ .gt
  | _, _ => false

theorem Operator.admits_reverse {op reversed : Operator} (h : op.reverse? = some reversed)
    (o : Ordering) : reversed.admits o = !op.admits o := by
  cases op <;> cases h <;> cases o <;> rfl

structure Interpretation where
  numeral : String → Rat
  /-- The number that a text reads as, zero if it reads as none. -/
  reading : String → Rat
  assigned : String → Option Value → Datum
  arithmetic : Operator → Datum → Datum → Datum
  element : Datum → Datum → Datum
  order : Datum → Datum → Ordering
  numeral_zero : numeral "0" = 0
  numeral_one : numeral "1" = 1
  reading_zero : reading "0" = 0
  reading_one : reading "1" = 1
  order_number_zero : ∀ q, order (.number q) (.number 0) = .eq ↔ q = 0
  order_text_zero : ∀ s, order (.text s) (.number 0) = .eq ↔ reading s = 0
  order_number_text : ∀ q, order (.number q) (.text "0") = .eq ↔ q = 0
  /-- A text is compared with a text as it stands, not as the number it reads as. -/
  order_text_text : ∀ s, order (.text s) (.text "0") = .eq ↔ s = "0"

namespace Interpretation
variable (ι : Interpretation)

def isTrue : Datum → Bool
  | .number q => q ≠ 0
  | .text s => ι.reading s ≠ 0

def apply (op : Operator) (a b : Datum) : Datum :=
  if op.isComparison then .ofBool (op.admits (ι.order a b)) else ι.arithmetic op a b

/-- The value of an expression. No value is `NULL`, so that the test for it fails. -/
def eval : Expr → Datum
  | .number s => .number (ι.numeral s)
  | .text s => .text s
  | .null => .number 0
  | .named name value => ι.assigned name value
  | .binary l op r => if r = .null then .ofBool (op = .ne) else ι.apply op (eval l) (eval r)
  | .not e => .ofBool (!ι.isTrue (eval e))
  | .and l r => .ofBool (ι.isTrue (eval l) && ι.isTrue (eval r))
  | .or l r => .ofBool (ι.isTrue (eval l) || ι.isTrue (eval r))
  | .caseWhen c t f => if ι.isTrue (eval c) then eval t else eval f
  | .arrayGet a i => ι.element (eval a) (eval i)

def Holds (e : Expr) : Prop := ι.isTrue (ι.eval e)

instance (e : Expr) : Decidable (ι.Holds e) := inferInstanceAs (Decidable (_ = true))

@[simp] theorem isTrue_ofBool (b : Bool) : ι.isTrue (.ofBool b) = b := by
  cases b with
  | false => simp [isTrue, Datum.ofBool]
  | true => simp [isTrue, Datum.ofBool]

theorem eq_of_isTrue_eq {a b : Datum} (ha : a.IsTruthValue) (hb : b.IsTruthValue)
    (h : ι.isTrue a = ι.isTrue b) : a = b := by
  obtain ⟨x, rfl⟩ := ha
  obtain ⟨y, rfl⟩ := hb
  rw [isTrue_ofBool, isTrue_ofBool] at h
  rw [h]

/-- A value differs from the number zero exactly if it is true. -/
theorem admits_ne_number (d : Datum) :
    Operator.ne.admits (ι.order d (.number 0)) = ι.isTrue d := by
  cases d with
  | number q => simp [Operator.admits, isTrue, ι.order_number_zero]
  | text s => simp [Operator.admits, isTrue, ι.order_text_zero]

/-- A number differs from the text `0` exactly if it is true; a text does if, of the texts that
read as zero, it could only be this one. -/
theorem admits_ne_text {d : Datum} (h : ∀ s, d = .text s → ι.reading s = 0 → s = "0") :
    Operator.ne.admits (ι.order d (.text "0")) = ι.isTrue d := by
  cases d with
  | number q => simp [Operator.admits, isTrue, ι.order_number_text]
  | text s =>
    have hzero : s = "0" ↔ ι.reading s = 0 := by
      refine ⟨?_, h s rfl⟩
      rintro rfl
      exact ι.reading_zero
    simp [Operator.admits, isTrue, ι.order_text_text, hzero]

theorem apply_of_isComparison {op : Operator} (h : op.isComparison = true) (a b : Datum) :
    ι.apply op a b = .ofBool (op.admits (ι.order a b)) := by
  rw [apply, if_pos h]

theorem isTrue_eval_of_isConstant_zero {e : Expr} (h : e.isConstant "0" = true) :
    ι.isTrue (ι.eval e) = false := by
  cases e with
  | number s =>
    obtain rfl : s = "0" := by simpa [Expr.isConstant] using h
    simp [eval, isTrue, ι.numeral_zero]
  | text s =>
    obtain rfl : s = "0" := by simpa [Expr.isConstant] using h
    simp [eval, isTrue, ι.reading_zero]
  | _ => simp [Expr.isConstant] at h

theorem isTrue_eval_of_isConstant_one {e : Expr} (h : e.isConstant "1" = true) :
    ι.isTrue (ι.eval e) = true := by
  cases e with
  | number s =>
    obtain rfl : s = "1" := by simpa [Expr.isConstant] using h
    simp [eval, isTrue, ι.numeral_one]
  | text s =>
    obtain rfl : s = "1" := by simpa [Expr.isConstant] using h
    simp [eval, isTrue, ι.reading_one]
  | _ => simp [Expr.isConstant] at h

def wholeNumber (s : String) : Rat := ((Numeral.integer? s.toList).getD 0 : Int)

def toNumber : Datum → Rat
  | .number q => q
  | .text s => wholeNumber s

/-- Texts are ordered as texts, anything else as numbers. -/
def wholeOrder : Datum → Datum → Ordering
  | .text s, .text t => compareOfLessAndEq s t
  | a, b => compareOfLessAndEq (toNumber a) (toNumber b)

def wholeArithmetic (op : Operator) (a b : Datum) : Datum :=
  match op with
  | .add => .number (toNumber a + toNumber b)
  | .sub => .number (toNumber a - toNumber b)
  | .mul => .number (toNumber a * toNumber b)
  | .div => .number (toNumber a / toNumber b)
  | .mod => .number (toNumber a - toNumber b * (toNumber a / toNumber b).floor)
  | _ => .number 0

theorem compare_number_eq_iff (a b : Rat) : compareOfLessAndEq a b = .eq ↔ a = b :=
  compareOfLessAndEq_eq_eq (fun _ => Rat.le_refl) Rat.not_le

theorem compare_text_eq_iff (a b : String) : compareOfLessAndEq a b = .eq ↔ a = b :=
  compareOfLessAndEq_eq_eq String.le_refl String.not_le

/-- Constants and texts read as whole numbers, with the given values of names. -/
def whole (assigned : String → Option Value → Datum) : Interpretation where
  numeral := wholeNumber
  reading := wholeNumber
  assigned := assigned
  arithmetic := wholeArithmetic
  element a _ := a
  order := wholeOrder
  numeral_zero := by rfl
  numeral_one := by rfl
  reading_zero := by rfl
  reading_one := by rfl
  order_number_zero q := compare_number_eq_iff q 0
  order_text_zero s := compare_number_eq_iff (wholeNumber s) 0
  order_number_text q := compare_number_eq_iff q 0
  order_text_text s := compare_text_eq_iff s "0"

end Interpretation

end RecordMapper
