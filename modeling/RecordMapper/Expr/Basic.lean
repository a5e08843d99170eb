import RecordMapper.Value.Basic

/-!
# Expressions

Predicates as trees: constants, named values, operators, logic and choice. A few shapes that
compiled predicates tend to contain are folded into simpler ones with the same meaning:

    CASE WHEN c THEN 0 ELSE 1     NOT c
    CASE WHEN c THEN 1 ELSE 0     c
    CASE WHEN c THEN 0 ELSE f     NOT c AND f
    x <> 0                        x
-/

set_option autoImplicit false

namespace RecordMapper

inductive Operator
  | eq
  | ne
  | gt
  | ge
  | lt
  | le
  | add
  | sub
  | mul
  | div
  | mod
deriving DecidableEq, Repr

namespace Operator

def sign : Operator → String
  | eq => "="
  | ne => "<>"
  | gt => ">"
  | ge => ">="
  | lt => "<"
  | le => "<="
  | add => "+"
  | sub => "-"
  | mul => "*"
  | div => "/"
  | mod => "%"

/-- The comparison that holds exactly when this one does not; arithmetic has none. -/
def reverse? : Operator → Option Operator
  | eq => some ne
  | ne => some eq
  | gt => some le
  | le => some gt
  | ge => some lt
  | lt => some ge
  | add | sub | mul | div | mod => none

def isComparison (op : Operator) : Bool := op.reverse?.isSome

theorem reverse?_reverse? {op reversed : Operator} (h : op.reverse? = some reversed) :
    reversed.reverse? = some op := by
  cases op <;> cases h <;> rfl

end Operator

inductive Expr
  /-- A constant that is written as it is. -/
  | number (text : String)
  /-- A constant that is written in quotes. -/
  | text (s : String)
  | null
  /-- The column of that name; where there is none, the value as a parameter. -/
  | named (name : String) (value : Option Value)
  | binary (left : Expr) (op : Operator) (right : Expr)
  | not (inner : Expr)
  | and (left right : Expr)
  | or (left right : Expr)
  | caseWhen (condition ifTrue ifFalse : Expr)
  | arrayGet (array index : Expr)
deriving DecidableEq

namespace Expr

/-- Whether the expression is the constant `literal`, in quotes or not. -/
def isConstant (literal : String) : Expr → Bool
  | number s | text s => s = literal
  | _ => false

theorem not_isConstant {x : Expr} {literal other : String} (h : x.isConstant literal = true)
    (hne : literal ≠ other) : ¬x.isConstant other = true := by
  cases x with
  | number s =>
    obtain rfl : s = literal := by simpa [isConstant] using h
    simpa [isConstant] using hne
  | text s =>
    obtain rfl : s = literal := by simpa [isConstant] using h
    simpa [isConstant] using hne
  | _ => cases h

/-- The expression with one folding rule applied at its top, or itself if none applies. -/
def folded : Expr → Expr
  | caseWhen c t f =>
    if t.isConstant "0" then
      if f.isConstant "1" then not c else and (not c) f
    else if t.isConstant "1" && f.isConstant "0" then c
    else caseWhen c t f
  | binary l op r => if op = .ne ∧ r.isConstant "0" then l else binary l op r
  | e => e

/-- The expression folded at its top until no rule applies there. -/
def fullyFolded : Expr → Expr
  | caseWhen c t f =>
    if t.isConstant "0" then
      if f.isConstant "1" then not c else and (not c) f
    else if t.isConstant "1" && f.isConstant "0" then c.fullyFolded
    else caseWhen c t f
  | binary l op r => if op = .ne ∧ r.isConstant "0" then l.fullyFolded else binary l op r
  | e => e

end Expr

end RecordMapper
