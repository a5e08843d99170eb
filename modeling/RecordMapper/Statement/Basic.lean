import RecordMapper.Product
import RecordMapper.Value.Basic

/-!
# Statements

A statement is a list of fragments: text that is written as it is, and parameters. The SQL text
shows a placeholder for every parameter, and the parameters travel beside it in the same order.
Parameters never become part of the text, whatever they hold.
-/

set_option autoImplicit false

namespace RecordMapper

/-- How a placeholder is written: `?`, or `$` and the number of the parameter. -/
inductive PlaceholderStyle
  | positional
  | numbered
deriving DecidableEq, Repr

namespace PlaceholderStyle

def ofProduct (p : Product) : PlaceholderStyle :=
  if p.numbersPlaceholders then numbered else positional

/-- The placeholder of the `n`-th parameter, counted from 1. -/
def placeholder (n : Nat) : PlaceholderStyle → String
  | positional => "?"
  | numbered => "$" ++ Numeral.ofNat n

end PlaceholderStyle

inductive Fragment
  | text (s : String)
  | param (v : Value)
deriving DecidableEq

abbrev Sql := List Fragment

namespace Sql

def text (s : String) : Sql := [.text s]

def param (v : Value) : Sql := [.param v]

def separated (separator : String) : List Sql → Sql
  | [] => []
  | [item] => item
  | item :: next :: items => item ++ text separator ++ separated separator (next :: items)

def commas (items : List Sql) : Sql := separated ", " items

def params : Sql → List Value
  | [] => []
  | .text _ :: rest => params rest
  | .param v :: rest => v :: params rest

/-- The text, with placeholders counted on from `bound`. -/
def written (style : PlaceholderStyle) (bound : Nat) : Sql → String
  | [] => ""
  | .text s :: rest => s ++ written style bound rest
  | .param _ :: rest => style.placeholder (bound + 1) ++ written style (bound + 1) rest

@[simp] theorem params_append (a b : Sql) : params (a ++ b) = params a ++ params b := by
  induction a with
  | nil => rfl
  | cons f rest ih => cases f <;> simp [params, ih]

@[simp] theorem written_append (style : PlaceholderStyle) (bound : Nat) (a b : Sql) :
    written style bound (a ++ b) =
      written style bound a ++ written style (bound + (params a).length) b := by
  induction a generalizing bound with
  | nil => simp [written, params]
  | cons f rest ih =>
    cases f with
    | text s => simp [written, params, ih, String.append_assoc]
    | param v =>
      have hcount : bound + ((params rest).length + 1) = bound + 1 + (params rest).length := by omega
      simp [written, params, ih, String.append_assoc, hcount]

end Sql

structure Statement where
  style : PlaceholderStyle := .positional
  body : Sql := []
deriving DecidableEq

namespace Statement

def sql (s : Statement) : String := s.body.written s.style 0

def params (s : Statement) : List Value := s.body.params

def append (s : Statement) (more : Sql) : Statement := { s with body := s.body ++ more }

@[simp] theorem params_append (s : Statement) (more : Sql) :
    (s.append more).params = s.params ++ more.params :=
  Sql.params_append s.body more

end Statement

end RecordMapper
