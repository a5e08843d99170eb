import RecordMapper.Numeral
import RecordMapper.Text.Ascii
import RecordMapper.Text.Blank

/-!
# Database products and their versions

A product is known by a short name, which configurations use, and is recognised in the longer
product name that a connection reports.
-/

set_option autoImplicit false

namespace RecordMapper

inductive Product
  | generic
  | h2
  | mySql
  | postgreSql
  | sqlite
  | derby
deriving DecidableEq, Repr

namespace Product

def name : Product → String
  | generic => "generic"
  | h2 => "h2"
  | mySql => "mysql"
  | postgreSql => "postgresql"
  | sqlite => "sqlite"
  | derby => "derby"

def knownNames : List (String × Product) :=
  [("h2", h2), ("mysql", mySql), ("mariadb", mySql), ("postgresql", postgreSql),
   ("postgres", postgreSql), ("pg", postgreSql), ("sqlite", sqlite), ("derby", derby),
   ("javadb", derby), ("generic", generic), ("ansi", generic)]

def ofName? (text : String) : Option Product :=
  (knownNames.find? fun (name, _) => Text.sameLetters text name).map (·.2)

/-- The words that give a product away, in the order in which they are looked for. -/
def signatures : List (String × Product) :=
  [("h2", h2), ("mysql", mySql), ("mariadb", mySql), ("postgres", postgreSql),
   ("sqlite", sqlite), ("derby", derby)]

/-- The product behind the product name of a connection, `generic` if it gives nothing away. -/
def detect (reported : String) : Product :=
  let letters := (Text.lower reported).toList
  ((signatures.find? fun (word, _) => Text.occursIn word.toList letters).map (·.2)).getD generic

/-- Whether placeholders are numbered, `$1`, `$2` and so on, instead of `?`. -/
def numbersPlaceholders : Product → Bool
  | postgreSql => true
  | _ => false

@[simp] theorem ofName?_name (p : Product) : ofName? p.name = some p := by
  cases p <;> decide

end Product

structure ProductVersion where
  major : UInt32
  minor : UInt32
deriving DecidableEq, Repr

namespace ProductVersion

def zero : ProductVersion := ⟨0, 0⟩

def part? (digits : List Char) : Option UInt32 :=
  (Numeral.natural? digits).bind fun n => if n < Nat.pow 2 32 then some (UInt32.ofNat n) else none

/-- The version at the beginning of a text: digits, and the digits behind the next character. A
minor number that is missing or too large is 0. -/
def ofText? (text : String) : Option ProductVersion :=
  let cs := Text.trimBlanks text.toList
  let rest := (cs.dropWhile Numeral.isDigit).drop 1
  (part? (cs.takeWhile Numeral.isDigit)).map fun major =>
    ⟨major, (part? (rest.takeWhile Numeral.isDigit)).getD 0⟩

def compare (a b : ProductVersion) : Ordering :=
  (Ord.compare a.major b.major).then (Ord.compare a.minor b.minor)

def atLeast (v : ProductVersion) (major minor : UInt32) : Bool :=
  major < v.major || v.major = major && minor ≤ v.minor

def text (v : ProductVersion) : String :=
  Numeral.ofNat v.major.toNat ++ "." ++ Numeral.ofNat v.minor.toNat

end ProductVersion

end RecordMapper
