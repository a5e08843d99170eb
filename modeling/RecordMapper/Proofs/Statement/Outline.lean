import Mathlib.Data.List.Induction
import RecordMapper.Statement.Basic

/-!
# Outlines of statements

The outline of a piece of SQL is what is left of it without the values of its parameters. The text
that is written and the number of the parameters are seen from the outline.
-/

set_option autoImplicit false

namespace RecordMapper

namespace Sql

def outline : Sql → Sql
  | [] => []
  | .text s :: rest => .text s :: outline rest
  | .param _ :: rest => .param .null :: outline rest

@[simp] theorem outline_text (s : String) : (Sql.text s).outline = Sql.text s := rfl

@[simp] theorem outline_param (v : Value) : (Sql.param v).outline = Sql.param .null := rfl

@[simp] theorem outline_append (a b : Sql) : outline (a ++ b) = a.outline ++ b.outline := by
  induction a with
  | nil => rfl
  | cons f rest ih => cases f <;> simp [outline, ih]

@[simp] theorem outline_separated (separator : String) (items : List Sql) :
    (separated separator items).outline = separated separator (items.map outline) := by
  induction items using List.twoStepInduction with
  | nil => rfl
  | singleton item => rfl
  | cons_cons item next others _ ih =>
    rw [separated, outline_append, outline_append, ih]
    rfl

@[simp] theorem outline_commas (items : List Sql) :
    (commas items).outline = commas (items.map outline) :=
  outline_separated ", " items

@[simp] theorem outline_flatten (items : List Sql) :
    outline items.flatten = (items.map outline).flatten := by
  induction items with
  | nil => rfl
  | cons item rest ih =>
    rw [List.flatten_cons, outline_append, ih, List.map_cons, List.flatten_cons]

@[simp] theorem written_outline (style : PlaceholderStyle) (bound : Nat) (a : Sql) :
    a.outline.written style bound = a.written style bound := by
  induction a generalizing bound with
  | nil => rfl
  | cons f rest ih => cases f <;> simp only [outline, written, ih]

@[simp] theorem length_params_outline (a : Sql) : a.outline.params.length = a.params.length := by
  induction a with
  | nil => rfl
  | cons f rest ih =>
    cases f with
    | text s => exact ih
    | param v => rw [outline, params, params, List.length_cons, List.length_cons, ih]

end Sql

namespace Statement

def outline (s : Statement) : Statement := { s with body := s.body.outline }

@[simp] theorem sql_outline (s : Statement) : s.outline.sql = s.sql := Sql.written_outline _ _ _

@[simp] theorem length_params_outline (s : Statement) : s.outline.params.length = s.params.length :=
  Sql.length_params_outline s.body

end Statement

end RecordMapper
