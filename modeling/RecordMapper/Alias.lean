import RecordMapper.Argument
import RecordMapper.Registry
import RecordMapper.Table.Model

/-!
# Aliases

An alias is a record filled with sentinels that stands for a table in queries. A field of the
alias handed to a query denotes the field's column. Filling the alias anew keeps the columns and
changes the sentinels; those of the generation before are refused from then on.
-/

set_option autoImplicit false

namespace RecordMapper

structure Alias where
  /-- A number that is given to one alias only. It is an unsigned integer of 64 bits; that it comes
  back after 2^64 aliases is out of reach, and left out. -/
  id : Nat
  model : Model
  mapping : Mapping
  record : Record
  registry : Registry := {}

namespace Alias

def table (a : Alias) : Table := a.mapping.table

/-- Where the field in `slot` stands. -/
def place (a : Alias) (slot : Slot) : Place := a.record.place a.id slot

def reference (a : Alias) (slot : Slot) : Argument :=
  .content (a.record.get slot) (a.place slot)

def refill (a : Alias) (counter : UInt32) : Alias × UInt32 × Result Unit :=
  let g := a.registry.generate a.id a.mapping.fields a.record counter
  ({ a with registry := g.registry, record := g.record }, g.counter, g.outcome)

/-- The position that a column handle denotes: it is bound to this alias, or unbound and of a table
of this name. -/
def handled? (a : Alias) (c : ColumnRef) : Option Nat :=
  let isOurs : Bool :=
    match c.alias with
    | some id => id = a.id
    | none => c.table = a.table.name
  if isOurs then a.table.columnIndex? c.column else none

/-- What an argument with this key and column handle denotes; a handle goes before a key. -/
def lookup (a : Alias) (key : Option Key) (column : Option ColumnRef) : Lookup :=
  match column, key with
  | some c, _ =>
    match a.handled? c with
    | some i => .current i
    | none => .miss
  | none, some key => a.registry.lookup key
  | none, none => .miss

/-- The field that an argument denotes, if it denotes one; a retired sentinel is refused. -/
def resolve (a : Alias) (arg : Argument) : Result (Option Nat) :=
  match a.lookup arg.key? arg.columnRef? with
  | .current i => .ok (some i)
  | .retired => .error (.unmappedField (.stale ((arg.key?.map Key.display).getD "value")))
  | .miss => .ok none

def column (a : Alias) (arg : Argument) : Result ColumnRef := do
  match (← a.resolve arg).bind (a.mapping.fields[·]?) with
  | some f => return a.table.handle (some a.id) f.column
  | none => throw (.unmappedField (.notOfTable a.table.name))

end Alias

end RecordMapper
