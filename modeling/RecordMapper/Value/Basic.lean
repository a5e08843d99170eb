import RecordMapper.Binary.Shortest
import RecordMapper.Calendar.Format
import RecordMapper.Decimal.Basic
import RecordMapper.SqlType
import RecordMapper.Text.Quoted
import RecordMapper.Uuid

/-!
# Column values

A value is what travels between records, statements and connections. There is one kind of value
for every storage type, and `null`.
-/

set_option autoImplicit false

namespace RecordMapper

inductive Value
  | null
  | bool (b : Bool)
  | int8 (n : Int8)
  | int16 (n : Int16)
  | int32 (n : Int32)
  | int64 (n : Int64)
  | real (x : Binary32)
  | double (x : Binary64)
  | decimal (d : Decimal)
  | text (s : String)
  /-- A large text, as a connection reads it. -/
  | clob (s : String)
  | bytes (b : List UInt8)
  /-- A large byte string, as a connection reads it. -/
  | blob (b : List UInt8)
  | date (d : Calendar.Date)
  | time (t : Calendar.Time)
  | timestamp (t : Calendar.Timestamp)
  | uuid (u : Uuid)
deriving DecidableEq

instance : Inhabited Value := ⟨.null⟩

inductive ValueType
  | null
  | bool
  | int8
  | int16
  | int32
  | int64
  | real
  | double
  | decimal
  | text
  | clob
  | bytes
  | blob
  | date
  | time
  | timestamp
  | uuid
deriving DecidableEq, Repr

namespace ValueType

def name : ValueType → String
  | null => "null"
  | bool => "bool"
  | int8 => "i8"
  | int16 => "i16"
  | int32 => "i32"
  | int64 => "i64"
  | real => "f32"
  | double => "f64"
  | decimal => "decimal"
  | text => "text"
  | clob => "clob"
  | bytes => "bytes"
  | blob => "blob"
  | date => "date"
  | time => "time"
  | timestamp => "timestamp"
  | uuid => "uuid"

def all : List ValueType :=
  [null, bool, int8, int16, int32, int64, real, double, decimal, text, clob, bytes, blob, date,
   time, timestamp, uuid]

theorem mem_all (type : ValueType) : type ∈ all := by cases type <;> decide

def isInteger : ValueType → Bool
  | int8 | int16 | int32 | int64 => true
  | _ => false

def isNumeric : ValueType → Bool
  | real | double | decimal => true
  | type => type.isInteger

/-- The kind of value that a column of the storage type is bound with. -/
def ofSqlType : SqlType → ValueType
  | .boolean => bool
  | .tinyInt => int8
  | .smallInt => int16
  | .integer => int32
  | .bigInt => int64
  | .real => real
  | .double => double
  | .decimal => decimal
  | .varchar => text
  | .clob => clob
  | .blob => blob
  | .date => date
  | .time => time
  | .timestamp => timestamp
  | .uuid => uuid

/-- The storage type for values of this kind when none is declared. -/
def sqlType? : ValueType → Option SqlType
  | null => none
  | bool => some .boolean
  | int8 => some .tinyInt
  | int16 => some .smallInt
  | int32 => some .integer
  | int64 => some .bigInt
  | real => some .real
  | double => some .double
  | decimal => some .decimal
  | text => some .varchar
  | clob => some .clob
  | bytes | blob => some .blob
  | date => some .date
  | time => some .time
  | timestamp => some .timestamp
  | uuid => some .uuid

theorem sqlType?_ofSqlType (type : SqlType) : (ofSqlType type).sqlType? = some type := by
  cases type <;> rfl

end ValueType

namespace Value

def type : Value → ValueType
  | null => .null
  | bool _ => .bool
  | int8 _ => .int8
  | int16 _ => .int16
  | int32 _ => .int32
  | int64 _ => .int64
  | real _ => .real
  | double _ => .double
  | decimal _ => .decimal
  | text _ => .text
  | clob _ => .clob
  | bytes _ => .bytes
  | blob _ => .blob
  | date _ => .date
  | time _ => .time
  | timestamp _ => .timestamp
  | uuid _ => .uuid

def isNull : Value → Bool
  | null => true
  | _ => false

/-- The integer that a truth value or an integer stands for. -/
def integer? : Value → Option Int
  | bool b => some (if b then 1 else 0)
  | int8 n => some n.toInt
  | int16 n => some n.toInt
  | int32 n => some n.toInt
  | int64 n => some n.toInt
  | _ => none

def string? : Value → Option String
  | text s | clob s => some s
  | _ => none

/-- Equality as the database sees it: numbers by value, an undefined number equal to nothing. -/
def same : Value → Value → Bool
  | real x, real y => x.same y
  | double x, double y => x.same y
  | decimal x, decimal y => x.same y
  | v, w => v = w

/-- The plain text of a value. Of byte strings only the length is shown. -/
def display : Value → String
  | null => "null"
  | bool b => if b then "true" else "false"
  | int8 n => Numeral.ofInt n.toInt
  | int16 n => Numeral.ofInt n.toInt
  | int32 n => Numeral.ofInt n.toInt
  | int64 n => Numeral.ofInt n.toInt
  | real x => x.text
  | double x => x.text
  | decimal d => d.text
  | text s | clob s => s
  | bytes b | blob b => "<" ++ Numeral.ofNat b.length ++ " bytes>"
  | date d => d.text
  | time t => t.text
  | timestamp t => t.text
  | uuid u => u.text

def bytesLiteral (b : List UInt8) : String :=
  let digits := b.flatMap fun byte => Numeral.fixed 16 2 byte.toNat
  "X'" ++ String.ofList ((Numeral.chars digits).map Char.toUpper) ++ "'"

/-- The value as a literal of SQL, for logs only. -/
def literal : Value → String
  | null => "NULL"
  | bool b => if b then "TRUE" else "FALSE"
  | text s | clob s => Text.literal s
  | bytes b | blob b => bytesLiteral b
  | date d => Text.literal d.text
  | time t => Text.literal t.text
  | timestamp t => Text.literal t.text
  | uuid u => Text.literal u.text
  | v => v.display

theorem isNull_iff {v : Value} : v.isNull = true ↔ v = .null := by
  cases v <;> simp [isNull]

end Value

end RecordMapper
