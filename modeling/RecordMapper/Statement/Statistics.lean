import RecordMapper.Statement.Kind

/-!
# Statistics of statements

Statements that are sent to a database are counted by kind, and listeners hear of each one in the
order in which they subscribed.
-/

set_option autoImplicit false

namespace RecordMapper

structure Hearing where
  listener : Nat
  kind : StatementKind
  sql : String
deriving DecidableEq, Repr

structure Statistics where
  /-- How many statements of each kind have been sent. The counters are unsigned integers of 64
  bits; here they do not wrap around, as no program sends 2^64 statements. -/
  count : StatementKind → Nat := fun _ => 0
  /-- The listeners, the one that subscribed first in front. -/
  listeners : List Nat := []
  next : Nat := 1
  heard : List Hearing := []

namespace Statistics

def total (s : Statistics) : Nat := (StatementKind.all.map s.count).foldr (· + ·) 0

/-- Sets all counts to zero; listeners stay. -/
def reset (s : Statistics) : Statistics := { s with count := fun _ => 0 }

def subscribe (s : Statistics) : Statistics × Nat :=
  ({ s with listeners := s.listeners ++ [s.next], next := s.next + 1 }, s.next)

def unsubscribe (s : Statistics) (listener : Nat) : Statistics × Bool :=
  ({ s with listeners := s.listeners.filter (· != listener) }, s.listeners.contains listener)

def record (s : Statistics) (kind : StatementKind) (sql : String) : Statistics :=
  { s with
    count := fun k => if k = kind then s.count k + 1 else s.count k
    heard := s.heard ++ s.listeners.map fun listener => ⟨listener, kind, sql⟩ }

@[simp] theorem count_record (s : Statistics) (kind k : StatementKind) (sql : String) :
    (s.record kind sql).count k = s.count k + if k = kind then 1 else 0 := by
  simp only [record]
  split <;> rfl

@[simp] theorem total_record (s : Statistics) (kind : StatementKind) (sql : String) :
    (s.record kind sql).total = s.total + 1 := by
  simp only [total, StatementKind.all, List.map, List.foldr, count_record]
  cases kind <;> simp <;> omega

@[simp] theorem total_reset (s : Statistics) : s.reset.total = 0 := rfl

end Statistics

end RecordMapper
