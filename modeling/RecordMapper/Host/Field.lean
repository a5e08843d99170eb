import RecordMapper.Enumeration
import RecordMapper.Host.Scalar

/-!
# Fields of records

The types of fields in full: built-in types, enumerations, wrappers around built-in types, and
optional types. A field type says how a content is stored and read, what serves as its sentinel,
and whether a content is recognised by value or by the place where it stands.
-/

set_option autoImplicit false

namespace RecordMapper

structure FieldContext where
  sqlType : SqlType
  strategy : EnumStrategy
deriving DecidableEq, Repr

/-- A type of its own around a built-in type, stored and read like it. -/
structure Wrapper where
  name : String
  base : ScalarType
  sqlType : SqlType
  isByValue : Bool := false
  /-- The content that serves as sentinel, whatever the counter; without one there is none. -/
  sentinel : Option Scalar := none
deriving DecidableEq

inductive FieldType
  | scalar (type : ScalarType)
  | enumeration (e : Enumeration)
  | wrapped (w : Wrapper)
  | optional (type : FieldType)
deriving DecidableEq

inductive FieldValue
  | scalar (s : Scalar)
  | member (e : Enumeration) (m : e.Member)
  | wrapped (w : Wrapper) (s : Scalar)
  | absent (type : FieldType)
  | present (v : FieldValue)
deriving DecidableEq

instance : Inhabited FieldValue := ⟨.scalar (.bool false)⟩

namespace FieldType

/-- The storage type where the column declares none. -/
def sqlType (strategy : EnumStrategy) : FieldType → SqlType
  | scalar type => type.sqlType
  | enumeration e => e.sqlType strategy
  | wrapped w => w.sqlType
  | optional type => type.sqlType strategy

def isNullable : FieldType → Bool
  | optional _ => true
  | _ => false

def isByValue : FieldType → Bool
  | scalar type => type.isByValue
  | wrapped w => w.isByValue
  | enumeration _ | optional _ => false

def decode (cx : FieldContext) (v : Value) : FieldType → Result FieldValue
  | scalar type => (type.decode v).map .scalar
  | enumeration e => (e.decode v cx.strategy).map (.member e)
  | wrapped w => (w.base.decode v).map (.wrapped w)
  | optional type => if v.isNull then .ok (.absent type) else (type.decode cx v).map .present

/-- The content that serves as sentinel for a value of the counter. Members of an enumeration
cannot be made up, so its first member stands in. -/
def sentinel (seq : UInt32) : FieldType → Result FieldValue
  | scalar type => (type.sentinel seq).map .scalar
  | enumeration e =>
    if h : 0 < e.members.length then .ok (.member e ⟨0, h⟩)
    else .error (.noSentinel e.name .noMembers)
  | wrapped w =>
    match w.sentinel with
    | some s => .ok (.wrapped w s)
    | none => .error (.noSentinel w.name .typeWithoutSentinel)
  | optional type => (type.sentinel seq).map .present

/-- The content of a field that nobody has set; an enumeration without members has none. -/
def default? : FieldType → Option FieldValue
  | scalar type => some (.scalar type.default)
  | enumeration e => if h : 0 < e.members.length then some (.member e ⟨0, h⟩) else none
  | wrapped w => some (.wrapped w w.base.default)
  | optional type => some (.absent type)

end FieldType

namespace FieldValue

def type : FieldValue → FieldType
  | scalar s => .scalar s.type
  | member e _ => .enumeration e
  | wrapped w _ => .wrapped w
  | absent type => .optional type
  | present v => .optional v.type

def toValue (cx : FieldContext) : FieldValue → Result Value
  | scalar s => .ok s.toValue
  | member e m => e.encode m cx.strategy
  | wrapped _ s => .ok s.toValue
  | absent _ => .ok .null
  | present v => v.toValue cx

def key (place : Place) : FieldValue → Key
  | scalar s => s.key?.getD (.identity place)
  | wrapped w s => if w.isByValue then s.key?.getD (.identity place) else .identity place
  | member _ _ | absent _ | present _ => .identity place

end FieldValue

end RecordMapper
