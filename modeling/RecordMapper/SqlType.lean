import RecordMapper.Text.Ascii
import RecordMapper.Text.Blank

/-!
# Storage types of columns

The portable type of a column. Every dialect has its own names for these types; the names here
are the standard ones, and a few further names are understood when a type is looked up.
-/

set_option autoImplicit false

namespace RecordMapper

inductive SqlType
  | boolean
  | tinyInt
  | smallInt
  | integer
  | bigInt
  | real
  | double
  | decimal
  | varchar
  | clob
  | blob
  | date
  | time
  | timestamp
  | uuid
deriving DecidableEq, Repr

namespace SqlType

def name : SqlType → String
  | boolean => "BOOLEAN"
  | tinyInt => "TINYINT"
  | smallInt => "SMALLINT"
  | integer => "INTEGER"
  | bigInt => "BIGINT"
  | real => "REAL"
  | double => "DOUBLE"
  | decimal => "DECIMAL"
  | varchar => "VARCHAR"
  | clob => "CLOB"
  | blob => "BLOB"
  | date => "DATE"
  | time => "TIME"
  | timestamp => "TIMESTAMP"
  | uuid => "UUID"

def isInteger : SqlType → Bool
  | tinyInt | smallInt | integer | bigInt => true
  | _ => false

def isNumeric : SqlType → Bool
  | real | double | decimal => true
  | type => type.isInteger

def isTextual : SqlType → Bool
  | varchar | clob => true
  | _ => false

def isTemporal : SqlType → Bool
  | date | time | timestamp => true
  | _ => false

/-- The type of a name in any case, blanks around it ignored. -/
def ofName? (text : String) : Option SqlType :=
  match Text.upper (Text.trim text) with
  | "BOOLEAN" | "BOOL" | "BIT" => some boolean
  | "TINYINT" => some tinyInt
  | "SMALLINT" | "INT2" => some smallInt
  | "INTEGER" | "INT" | "INT4" => some integer
  | "BIGINT" | "INT8" => some bigInt
  | "REAL" | "FLOAT4" => some real
  | "DOUBLE" | "DOUBLE PRECISION" | "FLOAT" | "FLOAT8" => some double
  | "DECIMAL" | "NUMERIC" => some decimal
  | "VARCHAR" | "CHARACTER VARYING" | "CHAR" | "TEXT" => some varchar
  | "CLOB" => some clob
  | "BLOB" | "BYTEA" | "BINARY" | "VARBINARY" => some blob
  | "DATE" => some date
  | "TIME" => some time
  | "TIMESTAMP" | "DATETIME" => some timestamp
  | "UUID" => some uuid
  | _ => none

end SqlType

end RecordMapper
