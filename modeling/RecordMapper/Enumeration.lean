import RecordMapper.Value.Conversion

/-!
# Enumerations in columns

An enumeration has named members in a fixed order. A member is stored by its name, by its position
or by an identifier of its own; what is read is looked for under the same strategy only.
-/

set_option autoImplicit false

namespace RecordMapper

inductive EnumStrategy
  | name
  | ordinal
  | customId
deriving DecidableEq, Repr

structure EnumMember where
  name : String
  customId : Option Value := none
deriving DecidableEq

structure Enumeration where
  name : String
  members : List EnumMember
deriving DecidableEq

namespace Enumeration

abbrev Member (e : Enumeration) := Fin e.members.length

variable (e : Enumeration)

/-- The storage type under a strategy; under `customId` that of the first identifier. -/
def sqlType : EnumStrategy → SqlType
  | .name => .varchar
  | .ordinal => .integer
  | .customId =>
    ((e.members.findSome? (·.customId)).bind (·.type.sqlType?)).getD .varchar

def encode (member : e.Member) (strategy : EnumStrategy) : Result Value :=
  let named := e.members.get member
  match strategy with
  | .name => .ok (.text named.name)
  | .ordinal =>
    if member.val < Nat.pow 2 31 then .ok (.int32 (Int32.ofNat member.val))
    else .error (.unconvertible named.name .text .ordinal)
  | .customId =>
    match named.customId with
    | some id => .ok id
    | none => .error (.unconvertible named.name .text (.customId e.name))

/-- Whether `v`, brought to the kind of the member's identifier, is that identifier. -/
def hasId (v : Value) (member : EnumMember) : Bool :=
  member.customId.any fun id =>
    match v.convert id.type with
    | .ok w => w.same id
    | .error _ => false

def find? (v : Value) : EnumStrategy → Option e.Member
  | .name =>
    v.string?.bind fun s =>
      (List.finRange _).find? fun i => Text.sameLetters (e.members.get i).name (Text.trim s)
  | .ordinal =>
    match v.convert .int64 with
    | .ok (.int64 n) =>
      if h : 0 ≤ n.toInt ∧ n.toInt.toNat < e.members.length then some ⟨n.toInt.toNat, h.2⟩ else none
    | _ => none
  | .customId => (List.finRange _).find? fun i => hasId v (e.members.get i)

def decode (v : Value) (strategy : EnumStrategy) : Result e.Member :=
  match e.find? v strategy with
  | some member => .ok member
  | none => .error (.unconvertible v.display v.type (.enumeration e.name))

end Enumeration

end RecordMapper
