import RecordMapper.Binary.Basic
import RecordMapper.Numeral

/-!
# Keys

A key is how a field of an alias is recognised when it is handed to a query. Numbers and truth
values are recognised by value, all else by its address, the place where it stands: in which alias
and where in it. A value that stands in no alias has a place that equals no field's place.

A field that takes up room has its place to itself. One that takes up none, as an enumeration with
a single member does, may stand at the place of another field, and then has its address.
-/

set_option autoImplicit false

namespace RecordMapper

/-- The path to a field of a record: the field's name, behind the names of the records in which
it is embedded. -/
abbrev Slot := List String

/-- An address. Different owners keep their records in different parts of the memory; within a
record the place is named by a slot. -/
inductive Place
  | field (owner : Nat) (slot : Slot)
  | elsewhere
deriving DecidableEq, Repr

inductive Key
  | identity (place : Place)
  | int (n : Int)
  | float (bits : BitVec 64)
  | bool (b : Bool)
deriving DecidableEq

namespace Key

def isByValue : Key → Bool
  | identity _ => false
  | _ => true

def display : Key → String
  | identity _ => "Identity"
  | int n => "Int(" ++ Numeral.ofInt n ++ ")"
  | float bits => "Float(" ++ Numeral.ofNat bits.toNat ++ ")"
  | bool b => if b then "Bool(true)" else "Bool(false)"

end Key

end RecordMapper
