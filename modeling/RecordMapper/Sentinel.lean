import RecordMapper.Error

/-!
# Sentinels

A sentinel is a value made from a counter, so that it can be told apart from the sentinels of other
fields. The counter has 32 bits and begins anew at zero after its last value. Where a kind of value
is too narrow for the counter, the leading bits are dropped.
-/

set_option autoImplicit false

namespace RecordMapper.Sentinel

def firstCount : UInt32 := 1

def advance (counter : UInt32) (n : Nat) : UInt32 := counter + UInt32.ofNat n

def dateFor (seq : UInt32) : Result Calendar.Date :=
  match Calendar.Date.ofDay? seq.toNat with
  | some date => .ok date
  | none => .error (.noSentinel "date" .counterOutOfRange)

/-- The second of the day, the counter taken modulo the seconds of a day. -/
def timeFor (seq : UInt32) : Calendar.Time := .ofMillis (seq.toNat % 86400 * 1000)

def timestampFor (seq : UInt32) : Result Calendar.Timestamp :=
  match Calendar.Timestamp.ofMillis? (seq.toNat * 1000) with
  | some timestamp => .ok timestamp
  | none => .error (.noSentinel "timestamp" .counterOutOfRange)

/-- The counter in four bytes, most significant first. -/
def bytesFor (seq : UInt32) : List UInt8 := (Numeral.fixed 256 4 seq.toNat).map UInt8.ofNat

def valueFor (type : ValueType) (seq : UInt32) : Result Value :=
  match type with
  | .null => .error (.noSentinel "null" .nullType)
  | .bool => .ok (.bool true)
  | .int8 => .ok (.int8 (Int8.ofNat seq.toNat))
  | .int16 => .ok (.int16 (Int16.ofNat seq.toNat))
  | .int32 => .ok (.int32 (Int32.ofNat seq.toNat))
  | .int64 => .ok (.int64 (Int64.ofNat seq.toNat))
  | .real => .ok (.real (Binary.ofInt .single seq.toNat))
  | .double => .ok (.double (Binary.ofInt .double seq.toNat))
  | .decimal => .ok (.decimal (Decimal.ofInt64 (Int64.ofNat seq.toNat)))
  | .text => .ok (.text (Numeral.ofNat seq.toNat))
  | .clob => .ok (.clob (Numeral.ofNat seq.toNat))
  | .bytes => .ok (.bytes (bytesFor seq))
  | .blob => .ok (.blob (bytesFor seq))
  | .date => (dateFor seq).map .date
  | .time => .ok (.time (timeFor seq))
  | .timestamp => (timestampFor seq).map .timestamp
  | .uuid => .ok (.uuid (Uuid.ofNat seq.toNat))

end RecordMapper.Sentinel
