import RecordMapper.Calendar.Time
import RecordMapper.Numeral
import RecordMapper.Text.Blank

/-!
# Date and time formats

A format is a list of items. The same format prints a timestamp and reads one. Printing fills
fields with zeros; reading is more liberal: numbers may be short and have blanks before them, a
blank in the format stands for any number of blanks, and the fraction of a second may be left out.
-/

set_option autoImplicit false

namespace RecordMapper.Calendar

inductive Item
  | year
  | month
  | day
  | hour
  | minute
  | second
  | fraction
  | mark (c : Char)
  | blank
deriving DecidableEq, Repr

abbrev Format := List Item

namespace Format

def date : Format := [.year, .mark '-', .month, .mark '-', .day]

def minutes : Format := [.hour, .mark ':', .minute]

def time : Format := minutes ++ [.mark ':', .second, .fraction]

/-- `2024-02-29 10:20:30.5`, the form in which timestamps are written. -/
def timestamp : Format := date ++ .blank :: time

/-- The forms in which timestamps are read, in the order in which they are tried. -/
def timestamps : List Format :=
  [timestamp, date ++ .mark 'T' :: time, date ++ .blank :: minutes, date ++ .mark 'T' :: minutes]

end Format

def padded (width n : Nat) : List Char :=
  let digits := Numeral.decimal n
  Numeral.chars (List.replicate (width - digits.length) 0 ++ digits)

/-- At least four digits; years outside 0 to 9999 have a sign. -/
def printYear (year : Int) : List Char :=
  if year < 0 then '-' :: padded 4 year.natAbs
  else if year < 10000 then padded 4 year.natAbs
  else '+' :: padded 4 year.natAbs

/-- The fraction in 3, 6 or 9 digits, the fewest that are exact. -/
def printFraction (nanosecond : Nat) : List Char :=
  let nanos := nanosecond % 1000000000
  let digits :=
    if nanos = 0 then []
    else if nanos % 1000000 = 0 then Numeral.fixed 10 3 (nanos / 1000000)
    else if nanos % 1000 = 0 then Numeral.fixed 10 6 (nanos / 1000)
    else Numeral.fixed 10 9 nanos
  if digits.isEmpty then [] else '.' :: Numeral.chars digits

def Item.print (t : Timestamp) : Item → List Char
  | .year => printYear t.date.civil.year
  | .month => padded 2 t.date.civil.month
  | .day => padded 2 t.date.civil.day
  | .hour => padded 2 t.time.hour
  | .minute => padded 2 t.time.minute
  | .second => padded 2 t.time.clockSecond
  | .fraction => printFraction t.time.nanosecond
  | .mark c => [c]
  | .blank => [' ']

def Format.print (format : Format) (t : Timestamp) : String :=
  String.ofList (format.flatMap (·.print t))

def Date.text (d : Date) : String := Format.date.print ⟨d, .midnight⟩

def Time.text (t : Time) : String := Format.time.print ⟨.epoch, t⟩

def Timestamp.text (t : Timestamp) : String := Format.timestamp.print t

/-- The fields read so far; fields that a format does not have keep their zero. -/
structure Reading where
  civil : Civil := ⟨0, 0, 0⟩
  hour : Nat := 0
  minute : Nat := 0
  second : Nat := 0
  nanosecond : Nat := 0

def readDigits (most : Nat) (cs : List Char) : Option (Nat × List Char) :=
  let digits := (cs.take most).takeWhile Numeral.isDigit
  (Numeral.natural? digits).map fun n => (n, cs.drop digits.length)

def readNumber (cs : List Char) : Option (Nat × List Char) :=
  readDigits 2 (Text.skipBlanks cs)

/-- A year of up to four digits, or of any number of digits behind a sign. -/
def readYear (cs : List Char) : Option (Int × List Char) :=
  match Text.skipBlanks cs with
  | '-' :: rest => (readDigits rest.length rest).map fun (n, rest) => (-(n : Int), rest)
  | '+' :: rest => (readDigits rest.length rest).map fun (n, rest) => ((n : Int), rest)
  | rest => (readDigits 4 rest).map fun (n, rest) => ((n : Int), rest)

/-- Nanoseconds from the digits behind a point; digits beyond the ninth are dropped. -/
def readFraction : List Char → Option (Nat × List Char)
  | '.' :: rest =>
    let digits := rest.takeWhile Numeral.isDigit
    let kept := digits.take 9
    (Numeral.natural? kept).map fun n => (n * Nat.pow 10 (9 - kept.length), rest.drop digits.length)
  | rest => some (0, rest)

def Item.read (item : Item) (r : Reading) (cs : List Char) : Option (Reading × List Char) :=
  match item with
  | .year => (readYear cs).map fun (n, rest) => ({ r with civil.year := n }, rest)
  | .month => (readNumber cs).map fun (n, rest) => ({ r with civil.month := n }, rest)
  | .day => (readNumber cs).map fun (n, rest) => ({ r with civil.day := n }, rest)
  | .hour => (readNumber cs).map fun (n, rest) => ({ r with hour := n }, rest)
  | .minute => (readNumber cs).map fun (n, rest) => ({ r with minute := n }, rest)
  | .second => (readNumber cs).map fun (n, rest) => ({ r with second := n }, rest)
  | .fraction => (readFraction cs).map fun (n, rest) => ({ r with nanosecond := n }, rest)
  | .mark c => if cs.head? = some c then some (r, cs.tail) else none
  | .blank => some (r, Text.skipBlanks cs)

def Format.readFrom : Format → Reading → List Char → Option Reading
  | [], r, cs => if cs.isEmpty then some r else none
  | item :: items, r, cs => (item.read r cs).bind fun (r, rest) => readFrom items r rest

def Format.read (format : Format) (cs : List Char) : Option Reading := format.readFrom {} cs

def Reading.date? (r : Reading) : Option Date := Date.ofCivil? r.civil

def Reading.time? (r : Reading) : Option Time := Time.ofClock? r.hour r.minute r.second r.nanosecond

def Reading.timestamp? (r : Reading) : Option Timestamp := do return ⟨← r.date?, ← r.time?⟩

def Date.ofText? (cs : List Char) : Option Date := (Format.date.read cs).bind (·.date?)

def Time.ofText? (cs : List Char) : Option Time :=
  [Format.time, Format.minutes].findSome? fun f => (f.read cs).bind (·.time?)

def Timestamp.ofText? (cs : List Char) : Option Timestamp :=
  Format.timestamps.findSome? fun f => (f.read cs).bind (·.timestamp?)

end RecordMapper.Calendar
