import RecordMapper.Host.Field
import RecordMapper.IndexKind

/-!
# Tables and columns

What dialects have to know about a table, whatever kind of record is stored in it. Columns are
looked up without regard to case, by their own names first and then by the names of their fields.
-/

set_option autoImplicit false

namespace RecordMapper

structure Column where
  name : String
  fieldName : String
  sqlType : SqlType
  /-- The greatest length of a text, or the precision of a decimal. -/
  length : Option Nat := none
  scale : Option Nat := none
  /-- Whether texts are cut to the length before they are written. -/
  trim : Bool := false
  nullable : Bool := false
  primaryKey : Bool := false
  autoIncrement : Bool := false
  strategy : EnumStrategy := .name
  isByValue : Bool := false
deriving DecidableEq

def Column.context (c : Column) : FieldContext := ⟨c.sqlType, c.strategy⟩

structure Index where
  name : String
  kind : IndexKind
  columns : List String
deriving DecidableEq

structure Table where
  name : String
  schema : Option String := none
  columns : List Column := []
  primaryKey : List String := []
  indexes : List Index := []
  version : Nat := 0
  createIfMissing : Bool := true
  memoryTable : Bool := false
deriving DecidableEq

/-- A handle of one column: bound to an alias, or to be found in the first table of its name. -/
structure ColumnRef where
  «alias» : Option Nat
  table : String
  column : String
  sqlType : SqlType
  strategy : EnumStrategy := .name
deriving DecidableEq

namespace Table

/-- The position of the column with this name or field name. -/
def columnIndex? (t : Table) (name : String) : Option Nat :=
  (t.columns.findIdx? fun c => Text.sameLetters c.name name).or
    (t.columns.findIdx? fun c => Text.sameLetters c.fieldName name)

def column? (t : Table) (name : String) : Option Column :=
  (t.columnIndex? name).bind (t.columns[·]?)

def handle (t : Table) (owner : Option Nat) (c : Column) : ColumnRef :=
  ⟨owner, t.name, c.name, c.sqlType, c.strategy⟩

def columnRef? (t : Table) (name : String) : Option ColumnRef :=
  (t.column? name).map (t.handle none)

def hasPrimaryKey (t : Table) : Bool := !t.primaryKey.isEmpty

def primaryKeyColumns (t : Table) : List Column := t.primaryKey.filterMap t.column?

def isPrimaryKey (t : Table) (column : String) : Bool :=
  t.primaryKey.any (Text.sameLetters · column)

def otherColumns (t : Table) : List Column := t.columns.filter fun c => !t.isPrimaryKey c.name

theorem columnIndex?_lt {t : Table} {name : String} {i : Nat} (h : t.columnIndex? name = some i) :
    i < t.columns.length := by
  simp only [columnIndex?, Option.or_eq_some_iff] at h
  rcases h with h | ⟨_, h⟩
  · exact (List.findIdx?_eq_some_iff_findIdx_eq.1 h).1
  · exact (List.findIdx?_eq_some_iff_findIdx_eq.1 h).1

end Table

end RecordMapper
