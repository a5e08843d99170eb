import RecordMapper.Host.Field
import RecordMapper.Table.Basic

/-!
# Arguments

What can be handed to a query where a column or a value is expected: the content of a field, which
may stand in an alias, a text, a value, or the handle of a column.
-/

set_option autoImplicit false

namespace RecordMapper

inductive Argument
  | content (v : FieldValue) (place : Place)
  | text (s : String)
  | value (v : Value)
  | column (c : ColumnRef)
deriving DecidableEq

namespace Argument

def key? : Argument → Option Key
  | content v place => some (v.key place)
  | _ => none

def columnRef? : Argument → Option ColumnRef
  | column c => some c
  | _ => none

/-- The argument as a value, encoded for the column it is compared with, if there is one. -/
def literal (cx : Option FieldContext) : Argument → Result Value
  | content v _ =>
    match cx with
    | some cx => do (← v.toValue cx).convertToSql cx.sqlType
    | none => v.toValue ⟨v.type.sqlType .name, .name⟩
  | text s => encode (.text s)
  | value v => encode v
  | column c => .error (.unmappedField (.notInQuery c.table c.column))
where
  encode (v : Value) : Result Value :=
    match cx with
    | some cx => v.convertToSql cx.sqlType
    | none => .ok v

end Argument

end RecordMapper
