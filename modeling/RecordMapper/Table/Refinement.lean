import RecordMapper.Argument
import RecordMapper.Registry
import RecordMapper.Table.Mapping

/-!
# Refinements of a mapping

After its description a mapping may be refined with the help of a record filled with sentinels:
settings name their columns by references to fields of that record. The first refinement that
fails ends the rest.
-/

set_option autoImplicit false

namespace RecordMapper

/-- What a refinement takes for a field: a field of the record, or any other argument. -/
inductive Reference
  | own (slot : Slot)
  | other (a : Argument)

inductive Refinement
  | tableName (s : String)
  | schemaName (s : String)
  | version (n : Nat)
  | memoryTable
  | createIfMissing (b : Bool)
  | primaryKey (fields : List Reference)
  /-- An index; without a name it is numbered. -/
  | index (name : String) (kind : IndexKind) (fields : List Reference)
  | length (field : Reference) (n : Nat)
  | scale (field : Reference) (precision scale : Nat)
  | trim (field : Reference) (n : Nat)
  | nullable (field : Reference) (b : Bool)
  | autoIncrement (field : Reference)
  | columnName (field : Reference) (name : String)

/-- The owner of the record against which a mapping is refined; aliases have other numbers. -/
def refinementOwner : Nat := 0

/-- The record against which a mapping is refined, and its registry. -/
structure RefinementScope where
  registry : Registry
  record : Record

namespace RefinementScope

def key? (s : RefinementScope) : Reference → Option Key
  | .own slot => some (s.record.key refinementOwner slot)
  | .other a => a.key?

def position (s : RefinementScope) (m : Mapping) (r : Reference) : Result Nat :=
  let unknown : Result Nat := .error (.unmappedField (.notOfTable m.table.name))
  match s.key? r with
  | none => unknown
  | some key =>
    match s.registry.lookup key with
    | .current i => .ok i
    | .retired => .error (.unmappedField (.stale key.display))
    | .miss => unknown

def columnNames (s : RefinementScope) (m : Mapping) (rs : List Reference) : Result (List String) :=
  rs.mapM fun r => (s.position m r).map fun i => ((m.fields[i]?).map (·.column.name)).getD ""

def changeColumn (s : RefinementScope) (m : Mapping) (r : Reference) (change : Column → Column) :
    Result Mapping :=
  (s.position m r).map fun i =>
    { m with fields := m.fields.modify i fun f => { f with column := change f.column } }

def apply (s : RefinementScope) (m : Mapping) : Refinement → Result Mapping
  | .tableName name => .ok { m with table.name := name }
  | .schemaName name => .ok { m with table.schema := some name }
  | .version n => .ok { m with table.version := n }
  | .memoryTable => .ok { m with table.memoryTable := true }
  | .createIfMissing b => .ok { m with table.createIfMissing := b }
  | .primaryKey fields =>
    (s.columnNames m fields).map fun names => { m with table.primaryKey := names }
  | .index name kind fields =>
    (s.columnNames m fields).map fun columns =>
      { m with table.indexes := m.table.indexes ++ [⟨name, kind, columns⟩] }
  | .length field n => s.changeColumn m field fun c => { c with length := some n }
  | .scale field precision scale =>
    s.changeColumn m field fun c => { c with length := some precision, scale := some scale }
  | .trim field n => s.changeColumn m field fun c => { c with length := some n, trim := true }
  | .nullable field b => s.changeColumn m field fun c => { c with nullable := b }
  | .autoIncrement field =>
    s.changeColumn m field fun c =>
      { c with autoIncrement := true, primaryKey := true, nullable := false }
  | .columnName field name => s.changeColumn m field fun c => { c with name }

end RefinementScope

end RecordMapper
