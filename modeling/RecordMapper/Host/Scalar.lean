import RecordMapper.Key
import RecordMapper.Sentinel
import RecordMapper.Value.Conversion

/-!
# Built-in field types

The types a field of a record can have, apart from enumerations, wrappers and optional types.
Unsigned integers are stored in the next wider signed column, because databases have no unsigned
ones.
-/

set_option autoImplicit false

namespace RecordMapper

inductive ScalarType
  | int8
  | int16
  | int32
  | int64
  | uint8
  | uint16
  | uint32
  | float32
  | float64
  | bool
  | string
  | bytes
  | decimal
  | date
  | time
  | timestamp
  | uuid
deriving DecidableEq, Repr

inductive Scalar
  | int8 (n : Int8)
  | int16 (n : Int16)
  | int32 (n : Int32)
  | int64 (n : Int64)
  | uint8 (n : UInt8)
  | uint16 (n : UInt16)
  | uint32 (n : UInt32)
  | float32 (x : Binary32)
  | float64 (x : Binary64)
  | bool (b : Bool)
  | string (s : String)
  | bytes (b : List UInt8)
  | decimal (d : Decimal)
  | date (d : Calendar.Date)
  | time (t : Calendar.Time)
  | timestamp (t : Calendar.Timestamp)
  | uuid (u : Uuid)
deriving DecidableEq

namespace ScalarType

def valueType : ScalarType → ValueType
  | int8 => .int8
  | int16 | uint8 => .int16
  | int32 | uint16 => .int32
  | int64 | uint32 => .int64
  | float32 => .real
  | float64 => .double
  | bool => .bool
  | string => .text
  | bytes => .bytes
  | decimal => .decimal
  | date => .date
  | time => .time
  | timestamp => .timestamp
  | uuid => .uuid

def sqlType : ScalarType → SqlType
  | int8 => .tinyInt
  | int16 | uint8 => .smallInt
  | int32 | uint16 => .integer
  | int64 | uint32 => .bigInt
  | float32 => .real
  | float64 => .double
  | bool => .boolean
  | string => .varchar
  | bytes => .blob
  | decimal => .decimal
  | date => .date
  | time => .time
  | timestamp => .timestamp
  | uuid => .uuid

def isByValue : ScalarType → Bool
  | int8 | int16 | int32 | int64 | uint8 | uint16 | uint32 | float32 | float64 | bool => true
  | _ => false

@[simp] theorem sqlType?_valueType (type : ScalarType) :
    type.valueType.sqlType? = some type.sqlType := by
  cases type <;> rfl

end ScalarType

namespace Scalar

def type : Scalar → ScalarType
  | int8 _ => .int8
  | int16 _ => .int16
  | int32 _ => .int32
  | int64 _ => .int64
  | uint8 _ => .uint8
  | uint16 _ => .uint16
  | uint32 _ => .uint32
  | float32 _ => .float32
  | float64 _ => .float64
  | bool _ => .bool
  | string _ => .string
  | bytes _ => .bytes
  | decimal _ => .decimal
  | date _ => .date
  | time _ => .time
  | timestamp _ => .timestamp
  | uuid _ => .uuid

def toValue : Scalar → Value
  | int8 n => .int8 n
  | int16 n => .int16 n
  | int32 n => .int32 n
  | int64 n => .int64 n
  | uint8 n => .int16 (Int16.ofNat n.toNat)
  | uint16 n => .int32 (Int32.ofNat n.toNat)
  | uint32 n => .int64 (Int64.ofNat n.toNat)
  | float32 x => .real x
  | float64 x => .double x
  | bool b => .bool b
  | string s => .text s
  | bytes b => .bytes b
  | decimal d => .decimal d
  | date d => .date d
  | time t => .time t
  | timestamp t => .timestamp t
  | uuid u => .uuid u

/-- The key of a content that is recognised by value. A number of 32 bits has the same key as the
equal number of 64 bits. -/
def key? : Scalar → Option Key
  | int8 n => some (.int n.toInt)
  | int16 n => some (.int n.toInt)
  | int32 n => some (.int n.toInt)
  | int64 n => some (.int n.toInt)
  | uint8 n => some (.int n.toNat)
  | uint16 n => some (.int n.toNat)
  | uint32 n => some (.int n.toNat)
  | float32 x => some (.float (x.convert .double).bits)
  | float64 x => some (.float x.bits)
  | bool b => some (.bool b)
  | _ => none

@[simp] theorem type_toValue (s : Scalar) : s.toValue.type = s.type.valueType := by cases s <;> rfl

@[simp] theorem isSome_key? (s : Scalar) : s.key?.isSome = s.type.isByValue := by cases s <;> rfl

end Scalar

namespace ScalarType

/-- The content for a value of exactly the kind `type.valueType`, if it is in range. -/
def ofExact? (type : ScalarType) (v : Value) : Option Scalar :=
  match type, v with
  | int8, .int8 n => some (.int8 n)
  | int16, .int16 n => some (.int16 n)
  | int32, .int32 n => some (.int32 n)
  | int64, .int64 n => some (.int64 n)
  | uint8, .int16 n =>
    if 0 ≤ n.toInt ∧ n.toInt < Int.pow 2 8 then some (.uint8 (UInt8.ofNat n.toInt.toNat)) else none
  | uint16, .int32 n =>
    if 0 ≤ n.toInt ∧ n.toInt < Int.pow 2 16 then some (.uint16 (UInt16.ofNat n.toInt.toNat)) else none
  | uint32, .int64 n =>
    if 0 ≤ n.toInt ∧ n.toInt < Int.pow 2 32 then some (.uint32 (UInt32.ofNat n.toInt.toNat)) else none
  | float32, .real x => some (.float32 x)
  | float64, .double x => some (.float64 x)
  | bool, .bool b => some (.bool b)
  | string, .text s => some (.string s)
  | bytes, .bytes b => some (.bytes b)
  | decimal, .decimal d => some (.decimal d)
  | date, .date d => some (.date d)
  | time, .time t => some (.time t)
  | timestamp, .timestamp t => some (.timestamp t)
  | uuid, .uuid u => some (.uuid u)
  | _, _ => none

def decode (type : ScalarType) (v : Value) : Result Scalar := do
  let converted ← v.convert type.valueType
  v.found type.valueType (type.ofExact? converted)

def sentinel (type : ScalarType) (seq : UInt32) : Result Scalar :=
  match type with
  | int8 => .ok (.int8 (Int8.ofNat seq.toNat))
  | int16 => .ok (.int16 (Int16.ofNat seq.toNat))
  | int32 => .ok (.int32 (Int32.ofNat seq.toNat))
  | int64 => .ok (.int64 (Int64.ofNat seq.toNat))
  | uint8 => .ok (.uint8 (UInt8.ofNat seq.toNat))
  | uint16 => .ok (.uint16 (UInt16.ofNat seq.toNat))
  | uint32 => .ok (.uint32 seq)
  | float32 => .ok (.float32 (Binary.ofInt .single seq.toNat))
  | float64 => .ok (.float64 (Binary.ofInt .double seq.toNat))
  | bool => .ok (.bool true)
  | string => .ok (.string (Numeral.ofNat seq.toNat))
  | bytes => .ok (.bytes (Sentinel.bytesFor seq))
  | decimal => .ok (.decimal (Decimal.ofInt64 (Int64.ofNat seq.toNat)))
  | date => (Sentinel.dateFor seq).map .date
  | time => .ok (.time (Sentinel.timeFor seq))
  | timestamp => (Sentinel.timestampFor seq).map .timestamp
  | uuid => .ok (.uuid (Uuid.ofNat seq.toNat))

def default : ScalarType → Scalar
  | int8 => .int8 0
  | int16 => .int16 0
  | int32 => .int32 0
  | int64 => .int64 0
  | uint8 => .uint8 0
  | uint16 => .uint16 0
  | uint32 => .uint32 0
  | float32 => .float32 (.zero .single)
  | float64 => .float64 (.zero .double)
  | bool => .bool false
  | string => .string ""
  | bytes => .bytes []
  | decimal => .decimal .zero
  | date => .date .epoch
  | time => .time .midnight
  | timestamp => .timestamp .epoch
  | uuid => .uuid .nil

end ScalarType

end RecordMapper
