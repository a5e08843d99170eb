import RecordMapper.Host.Record
import RecordMapper.Rows
import RecordMapper.Table.Basic

/-!
# Mappings of records to tables

A mapping says for each column of a table which slot of a record it holds. Records are written
as one value per column and read back from result rows; columns that a row does not have leave
their fields untouched.
-/

set_option autoImplicit false

namespace RecordMapper

structure Adapter where
  sqlType : SqlType
  toColumn : Value → Result Value
  fromColumn : Value → Result Value

structure FieldMapping where
  column : Column
  slot : Slot
  type : FieldType
  adapter : Option Adapter := none

namespace FieldMapping

/-- A text that is to be trimmed, cut to the length of its column. -/
def trimmed (c : Column) (v : Value) : Value :=
  match c.trim, c.length, v with
  | true, some length, .text s => .text (String.ofList (s.toList.take length))
  | true, some length, .clob s => .clob (String.ofList (s.toList.take length))
  | _, _, v => v

def get (f : FieldMapping) (r : Record) : Result Value := do
  let raw ← (r.get f.slot).toValue f.column.context
  let stored ← match f.adapter with
    | some adapter => adapter.toColumn raw
    | none => raw.convertToSql f.column.sqlType
  return trimmed f.column stored

def set (f : FieldMapping) (r : Record) (v : Value) : Result Record := do
  let raw ← match f.adapter with
    | some adapter => adapter.fromColumn v
    | none => .ok v
  return r.set f.slot (← f.type.decode f.column.context raw)

def setSentinel (f : FieldMapping) (r : Record) (seq : UInt32) : Result Record :=
  (f.type.sentinel seq).map (r.set f.slot)

end FieldMapping

structure Mapping where
  table : Table
  fields : List FieldMapping

namespace Mapping

/-- The field whose column or field name this is. -/
def field? (m : Mapping) (name : String) : Option FieldMapping :=
  (m.table.columnIndex? name).bind (m.fields[·]?)

def values (m : Mapping) (r : Record) : Result (List Value) := m.fields.mapM (·.get r)

/-- The values of the key columns, in the order of the key. -/
def primaryKeyValues (m : Mapping) (r : Record) : Result (List Value) :=
  (m.table.primaryKey.filterMap m.field?).mapM (·.get r)

/-- The record of a row, begun with `initial`. -/
def readRow (m : Mapping) (initial : Record) (row : Row) : Result Record :=
  m.fields.foldlM (fun r f =>
    match row.get? f.column.name with
    | some v => f.set r v
    | none => .ok r) initial

end Mapping

end RecordMapper
