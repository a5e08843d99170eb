import RecordMapper.Table.Mapping

/-!
# Registries

A registry knows which key denotes which field of a record filled with sentinels. Filling the
record anew begins a generation: the keys of the generation before are retired, unless they have
come back, and those before them are forgotten.

A sentinel that is recognised by value has to differ from those of the fields before it; if it
does not, further sentinels are drawn, up to a limit.
-/

set_option autoImplicit false

namespace RecordMapper

inductive Lookup
  | current (i : Nat)
  | retired
  | miss
deriving DecidableEq, Repr

structure Registry where
  current : List (Key × Nat) := []
  retired : List Key := []
  /-- How often the record has been filled, as an unsigned integer of 64 bits; 2^64 fillings are out
  of reach. -/
  generation : Nat := 0

/-- How often a sentinel is drawn again before its field is given up. -/
def maxRedraws : Nat := 1024

structure Refill where
  counter : UInt32
  record : Record
  keys : List (Key × Nat) := []

namespace Refill

def has (r : Refill) (key : Key) : Bool := r.keys.any fun entry => entry.1 = key

/-- The entries with the one for `key` replaced, or a new one at the end. -/
def enter (key : Key) (i : Nat) : List (Key × Nat) → List (Key × Nat)
  | [] => [(key, i)]
  | entry :: rest => if entry.1 = key then (key, i) :: rest else entry :: enter key i rest

def assign (r : Refill) (owner : Nat) (f : FieldMapping) (seq : UInt32) : Result (Refill × Key) :=
  (f.setSentinel r.record seq).map fun record =>
    ({ r with record }, record.key owner f.slot)

theorem assign_eq_ok {r s : Refill} {owner : Nat} {f : FieldMapping} {seq : UInt32} {key : Key}
    (h : r.assign owner f seq = .ok (s, key)) :
    ∃ v, f.type.sentinel seq = .ok v ∧ s = { r with record := r.record.set f.slot v } ∧
      key = s.record.key owner f.slot := by
  unfold assign FieldMapping.setSentinel at h
  cases hv : f.type.sentinel seq with
  | error e =>
    rw [hv] at h
    cases h
  | ok v =>
    rw [hv] at h
    cases h
    exact ⟨v, rfl, rfl, rfl⟩

/-- Draws again while the key is the value of an earlier field, at most `fuel` times. -/
def redraw (owner : Nat) (f : FieldMapping) : (fuel : Nat) → Refill → Key → Refill × Result Key
  | fuel, r, key =>
    if key.isByValue && r.has key then
      match fuel with
      | 0 => (r, .error (.noSentinel f.column.fieldName .noDistinctValue))
      | fuel + 1 =>
        let drawn := { r with counter := Sentinel.advance r.counter 1 }
        match drawn.assign owner f r.counter with
        | .error e => (drawn, .error e)
        | .ok (next, key) => redraw owner f fuel next key
    else (r, .ok key)

/-- Fills the fields in order, the first in position `i` with the sentinel for `seq`. -/
def fill (owner : Nat) : List FieldMapping → (i : Nat) → (seq : UInt32) → Refill →
    Refill × Result Unit
  | [], _, _, r => (r, .ok ())
  | f :: rest, i, seq, r =>
    match r.assign owner f seq with
    | .error e => (r, .error e)
    | .ok (assigned, key) =>
      match redraw owner f maxRedraws assigned key with
      | (tried, .error e) => (tried, .error e)
      | (settled, .ok key) =>
        fill owner rest (i + 1) (seq + 1) { settled with keys := enter key i settled.keys }

end Refill

/-- The outcome of filling a record: after a failure the registry is the old one, while the record
keeps the sentinels that had been written. -/
structure Generation where
  registry : Registry
  record : Record
  counter : UInt32
  outcome : Result Unit

namespace Registry

def position? (keys : List (Key × Nat)) (key : Key) : Option Nat :=
  (keys.find? fun entry => entry.1 = key).map (·.2)

def succeed (g : Registry) (keys : List (Key × Nat)) : Registry where
  current := keys
  retired := (g.current.map (·.1)).filter fun key => (position? keys key).isNone
  generation := g.generation + 1

/-- Fills the record of `owner` with sentinels. As many values of the counter as there are fields
are drawn at once; drawing again takes single values. -/
def generate (g : Registry) (owner : Nat) (fields : List FieldMapping) (record : Record)
    (counter : UInt32) : Generation :=
  let start : Refill := { counter := Sentinel.advance counter fields.length, record }
  match Refill.fill owner fields 0 counter start with
  | (r, .ok ()) => ⟨g.succeed r.keys, r.record, r.counter, .ok ()⟩
  | (r, .error e) => ⟨g, r.record, r.counter, .error e⟩

def lookup (g : Registry) (key : Key) : Lookup :=
  match position? g.current key with
  | some i => .current i
  | none => if g.retired.contains key then .retired else .miss

/-- The field that a key denotes, if it denotes one; a retired key is refused. -/
def resolve (g : Registry) (key : Key) : Result (Option Nat) :=
  match g.lookup key with
  | .current i => .ok (some i)
  | .retired => .error (.unmappedField (.stale key.display))
  | .miss => .ok none

end Registry

end RecordMapper
