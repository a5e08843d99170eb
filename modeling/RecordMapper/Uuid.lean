import RecordMapper.Numeral
import RecordMapper.Text.Ascii

/-!
# Universally unique identifiers

An identifier has 128 bits. It is written as 32 hexadecimal digits in groups of 8, 4, 4, 4 and 12,
and also read without hyphens, in braces or behind `urn:uuid:`; letters of both cases are digits.
-/

set_option autoImplicit false

namespace RecordMapper

structure Uuid where
  bits : BitVec 128
deriving DecidableEq

namespace Uuid

def ofNat (n : Nat) : Uuid := ⟨BitVec.ofNat 128 n⟩

def nil : Uuid := ofNat 0

def bytes (u : Uuid) : List UInt8 := (Numeral.fixed 256 16 u.bits.toNat).map UInt8.ofNat

def ofBytes? (bytes : List UInt8) : Option Uuid :=
  if bytes.length = 16 then some (ofNat (Numeral.value 256 (bytes.map UInt8.toNat))) else none

def groups (cs : List Char) : List (List Char) :=
  [cs.take 8, (cs.drop 8).take 4, (cs.drop 12).take 4, (cs.drop 16).take 4, cs.drop 20]

def text (u : Uuid) : String :=
  String.ofList (List.intercalate ['-'] (groups (Numeral.chars (Numeral.fixed 16 32 u.bits.toNat))))

def ofDigits? (cs : List Char) : Option Uuid :=
  if cs.length = 32 then (Numeral.digits? 16 cs).map fun ds => ofNat (Numeral.value 16 ds) else none

def ofGroups? (cs : List Char) : Option Uuid :=
  let digits := cs.filter (· ≠ '-')
  if cs = List.intercalate ['-'] (groups digits) then ofDigits? digits else none

def ofText? (cs : List Char) : Option Uuid :=
  match cs with
  | '\x7b' :: rest =>
    if rest.getLast? = some '\x7d' then ofGroups? rest.dropLast else none
  | _ =>
    if (cs.take 9).map Char.toLower = "urn:uuid:".toList then ofGroups? (cs.drop 9)
    else if cs.length = 32 then ofDigits? cs
    else ofGroups? cs

end Uuid

end RecordMapper
