import RecordMapper.Binary.Reader
import RecordMapper.Decimal.Conversion
import RecordMapper.Decimal.Reader
import RecordMapper.Error

/-!
# Conversion of values

`Value.convert` brings a value to a given kind. `null` stays `null`, and a value that already has
the kind is not touched. A conversion fails when the two kinds have nothing in common or when the
value does not fit; it then names the value, its kind and what could not be made of it.

Narrow integers are converted by way of 64 bits, so that a value which is no integer at all is
reported as not convertible to the kind of 64 bits.
-/

set_option autoImplicit false

namespace RecordMapper

namespace Value

def cannotBecome (v : Value) (target : ValueType) : Error :=
  .unconvertible v.display v.type (.type target)

def found {α : Type} (v : Value) (target : ValueType) : Option α → Result α
  | some a => .ok a
  | none => .error (v.cannotBecome target)

def truthWords : List String := ["true", "yes", "y", "on"]

/-- A text is true if it is a finite number other than zero or a word for truth. -/
def truthOfText (s : String) : Bool :=
  let trimmed := Text.trim s
  match Binary.ofText? .double trimmed.toList with
  | some x => if x.isFinite then !x.isZero else truthWords.any (Text.sameLetters trimmed)
  | none => truthWords.any (Text.sameLetters trimmed)

def toBool (v : Value) : Result Bool :=
  match v with
  | .bool b => .ok b
  | .int8 _ | .int16 _ | .int32 _ | .int64 _ => .ok (v.integer? ≠ some 0)
  | .real x => .ok (!x.isZero)
  | .double x => .ok (!x.isZero)
  | .decimal d => .ok (!d.isZero)
  | .text s | .clob s => .ok (truthOfText s)
  | _ => .error (v.cannotBecome .bool)

def fits64 (n : Int) : Bool := -Int.pow 2 63 ≤ n && n < Int.pow 2 63

def integerOfBinary? {f : BinaryFormat} (x : Binary f) : Option Int :=
  x.truncated?.filter fits64

/-- A text as an integer of 64 bits: digits, or else a number without its fraction. -/
def integerOfText? (s : String) : Option Int :=
  let cs := Text.trimBlanks s.toList
  ((Numeral.integer? cs).filter fits64).or
    ((Binary.ofText? .double cs).bind integerOfBinary?)

/-- The integer of 64 bits for a value: milliseconds for dates and times. -/
def toInteger (v : Value) : Result Int :=
  v.found .int64 <|
    match v with
    | .real x => integerOfBinary? x
    | .double x => integerOfBinary? x
    | .decimal d => some d.truncated |>.filter fits64
    | .text s | .clob s => integerOfText? s
    | .date d => some (d.day * 86400000)
    | .time t => some t.millis
    | .timestamp t => some t.millis
    | v => v.integer?

def toDouble (v : Value) : Result Binary64 :=
  v.found .double <|
    match v with
    | .real x => some (x.convert .double)
    | .double x => some x
    | .decimal d => some d.toBinary64
    | .text s | .clob s => Binary.ofText? .double (Text.trimBlanks s.toList)
    | v => v.integer?.map (Binary.ofInt .double)

/-- The nearest number of 32 bits; a finite number must not become infinite. -/
def toReal (v : Value) : Result Binary32 := do
  let x ← v.toDouble
  let narrow := x.convert .single
  if x.isFinite && !narrow.isFinite then .error (v.cannotBecome .real) else .ok narrow

def toDecimal (v : Value) : Result Decimal :=
  v.found .decimal <|
    match v with
    | .decimal d => some d
    | .real x => Decimal.ofBinary32? x
    | .double x => Decimal.ofBinary64? x
    | .text s | .clob s => Decimal.ofText? (Text.trimBlanks s.toList)
    | v => v.integer?.map fun n => Decimal.ofInt64 (Int64.ofInt n)

/-- Bytes are read as UTF-8, all else is displayed. -/
def toText (v : Value) : Result String :=
  match v with
  | .bytes b | .blob b => (Value.bytes b).found .text (String.fromUTF8? b.toByteArray)
  | v => .ok v.display

def toBytes (v : Value) : Result (List UInt8) :=
  v.found .bytes <|
    match v with
    | .bytes b | .blob b => some b
    | .text s | .clob s => some s.toUTF8.toList
    | .uuid u => some u.bytes
    | _ => none

def timestampOfMillis? (v : Value) : Option Calendar.Timestamp :=
  if v.type.isInteger then v.integer?.bind Calendar.Timestamp.ofMillis? else none

def toDate (v : Value) : Result Calendar.Date :=
  v.found .date <|
    match v with
    | .date d => some d
    | .timestamp t => some t.date
    | .text s | .clob s =>
      let cs := Text.trimBlanks s.toList
      (Calendar.Date.ofText? cs).or ((Calendar.Timestamp.ofText? cs).map (·.date))
    | v => v.timestampOfMillis?.map (·.date)

def toTime (v : Value) : Result Calendar.Time :=
  v.found .time <|
    match v with
    | .time t => some t
    | .timestamp t => some t.time
    | .text s | .clob s =>
      let cs := Text.trimBlanks s.toList
      (Calendar.Time.ofText? cs).or ((Calendar.Timestamp.ofText? cs).map (·.time))
    | v => v.timestampOfMillis?.map (·.time)

def toTimestamp (v : Value) : Result Calendar.Timestamp :=
  v.found .timestamp <|
    match v with
    | .timestamp t => some t
    | .date d => some ⟨d, .midnight⟩
    | .text s | .clob s =>
      let cs := Text.trimBlanks s.toList
      (Calendar.Timestamp.ofText? cs).or ((Calendar.Date.ofText? cs).map (⟨·, .midnight⟩))
    | v => v.timestampOfMillis?

def toUuid (v : Value) : Result Uuid :=
  v.found .uuid <|
    match v with
    | .uuid u => some u
    | .text s | .clob s => Uuid.ofText? (Text.trimBlanks s.toList)
    | .bytes b | .blob b => Uuid.ofBytes? b
    | _ => none

def narrow (v : Value) (target : ValueType) (bits : Nat) : Result Int := do
  let n ← v.toInteger
  v.found target (if -Int.pow 2 (bits - 1) ≤ n ∧ n < Int.pow 2 (bits - 1) then some n else none)

def convert (v : Value) (target : ValueType) : Result Value :=
  if v.isNull || v.type = target then .ok v
  else match target with
    | .null => .error (v.cannotBecome .null)
    | .bool => v.toBool.map .bool
    | .int8 => (v.narrow .int8 8).map fun n => .int8 (Int8.ofInt n)
    | .int16 => (v.narrow .int16 16).map fun n => .int16 (Int16.ofInt n)
    | .int32 => (v.narrow .int32 32).map fun n => .int32 (Int32.ofInt n)
    | .int64 => v.toInteger.map fun n => .int64 (Int64.ofInt n)
    | .real => v.toReal.map .real
    | .double => v.toDouble.map .double
    | .decimal => v.toDecimal.map .decimal
    | .text => v.toText.map .text
    | .clob => v.toText.map .clob
    | .bytes => v.toBytes.map .bytes
    | .blob => v.toBytes.map .blob
    | .date => v.toDate.map .date
    | .time => v.toTime.map .time
    | .timestamp => v.toTimestamp.map .timestamp
    | .uuid => v.toUuid.map .uuid

def convertToSql (v : Value) (type : SqlType) : Result Value := v.convert (.ofSqlType type)

end Value

end RecordMapper
