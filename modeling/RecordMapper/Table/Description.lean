import RecordMapper.Table.Mapping

/-!
# Descriptions of tables

A description is a sequence of settings and field registrations; it may take over the fields of
the records that are embedded in the record described. The fields of an embedded record come first
and become columns only if the description says so, at every level of embedding.

The outcome of a description is a mapping that is not yet checked against itself; `Mapping.sealed`
does that.
-/

set_option autoImplicit false

namespace RecordMapper

structure FieldDeclaration where
  fieldName : String
  slot : Slot
  type : FieldType
  columnName : Option String := none
  sqlType : Option SqlType := none
  length : Option Nat := none
  scale : Option Nat := none
  trim : Bool := false
  nullable : Option Bool := none
  primaryKey : Bool := false
  autoIncrement : Bool := false
  strategy : EnumStrategy := .name
  adapter : Option Adapter := none

namespace FieldDeclaration

/-- The same field seen from a record that embeds the field's record under the name `at`. -/
def embed (place : String) (d : FieldDeclaration) : FieldDeclaration :=
  { d with slot := place :: d.slot }

def isPlainBool (d : FieldDeclaration) : Bool :=
  d.type.isByValue && d.type.sqlType .name = .boolean

/-- The column of the field. The type of an adapter goes before a declared type, and that before
the natural one; key columns are never nullable. -/
def column (d : FieldDeclaration) : Column :=
  let isKey := d.primaryKey || d.autoIncrement
  { name := d.columnName.getD d.fieldName
    fieldName := d.fieldName
    sqlType :=
      match d.adapter with
      | some adapter => adapter.sqlType
      | none => d.sqlType.getD (d.type.sqlType d.strategy)
    length := d.length
    scale := d.scale
    trim := d.trim
    nullable := d.nullable.getD d.type.isNullable && !isKey
    primaryKey := isKey
    autoIncrement := d.autoIncrement
    strategy := d.strategy
    isByValue := d.type.isByValue }

def mapping (d : FieldDeclaration) : FieldMapping := ⟨d.column, d.slot, d.type, d.adapter⟩

end FieldDeclaration

inductive Setting
  | name (s : String)
  | schema (s : String)
  | version (n : Nat)
  | createIfMissing (b : Bool)
  | memoryTable
  | inheritColumns
  | primaryKey (columns : List String)
  | index (i : Index)
  | field (d : FieldDeclaration)

inductive Description
  | done
  | setting (s : Setting) (rest : Description)
  /-- Takes over the description of the record embedded under the name `place`. -/
  | inherit (place : String) (base rest : Description)

structure TableDraft where
  name : Option String := none
  schema : Option String := none
  version : Nat := 0
  createIfMissing : Bool := true
  memoryTable : Bool := false
  inheritColumns : Bool := false
  primaryKey : List String := []
  indexes : List Index := []
  fields : List FieldDeclaration := []
  inherited : List FieldDeclaration := []

namespace TableDraft

def apply (t : TableDraft) : Setting → TableDraft
  | .name s => { t with name := some s }
  | .schema s => { t with schema := some s }
  | .version n => { t with version := n }
  | .createIfMissing b => { t with createIfMissing := b }
  | .memoryTable => { t with memoryTable := true }
  | .inheritColumns => { t with inheritColumns := true }
  | .primaryKey columns => { t with primaryKey := columns }
  | .index i => { t with indexes := t.indexes ++ [i] }
  | .field d => { t with fields := t.fields ++ [d] }

def persisted (t : TableDraft) : List FieldDeclaration :=
  (if t.inheritColumns then t.inherited else []) ++ t.fields

def inherit (t : TableDraft) (place : String) (base : TableDraft) : TableDraft :=
  { t with inherited := t.inherited ++ base.persisted.map (·.embed place) }

/-- The mapping as described. Two truth values recognised by value could not be told apart. -/
def finish (t : TableDraft) (typeName : String) : Result Mapping :=
  if 1 < (t.persisted.filter (·.isPlainBool)).length then
    .error (.unsupportedModel typeName .severalBooleans)
  else
    .ok {
      table :=
        { name := t.name.getD typeName
          schema := t.schema
          primaryKey := t.primaryKey
          indexes := t.indexes
          version := t.version
          createIfMissing := t.createIfMissing
          memoryTable := t.memoryTable }
      fields := t.persisted.map (·.mapping) }

end TableDraft

/-- Carries a description out, on top of what has been said before. -/
def Description.draft : Description → TableDraft → TableDraft
  | done, t => t
  | setting s rest, t => rest.draft (t.apply s)
  | inherit place base rest, t => rest.draft (t.inherit place (base.draft {}))

end RecordMapper
