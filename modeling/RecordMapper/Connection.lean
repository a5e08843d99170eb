import RecordMapper.Error
import RecordMapper.Rows
import RecordMapper.Statement.Basic

/-!
# Connections

A connection receives statements and answers them. It is given by what it reports about itself and
by a script of its answers; it keeps a record of all that it has received. A statement is received
even if the connection then reports a failure.
-/

set_option autoImplicit false

namespace RecordMapper

structure Message where
  sql : String
  params : List Value
deriving DecidableEq

structure Connection where
  product : String
  version : String
  /-- What the next statements fail with; those beyond the end of the list succeed. -/
  failures : List (Option DriverError) := []
  /-- The row counts of the next successful statements, 1 beyond the end of the list. -/
  counts : List UInt64 := []
  /-- The rows of the next successful queries, none beyond the end of the list. -/
  rows : List Rows := []
  received : List Message := []

namespace Connection

def failNext (c : Connection) (e : DriverError) : Connection :=
  { c with failures := some e :: c.failures.tail }

def receive (c : Connection) (s : Statement) : Connection × Option DriverError :=
  ({ c with received := c.received ++ [⟨s.sql, s.params⟩], failures := c.failures.tail },
    c.failures.head?.join)

def execute (c : Connection) (s : Statement) : Connection × Except DriverError UInt64 :=
  match c.receive s with
  | (c, some e) => (c, .error e)
  | (c, none) => ({ c with counts := c.counts.tail }, .ok (c.counts.head?.getD 1))

def query (c : Connection) (s : Statement) : Connection × Except DriverError Rows :=
  match c.receive s with
  | (c, some e) => (c, .error e)
  | (c, none) => ({ c with rows := c.rows.tail }, .ok (c.rows.head?.getD {}))

@[simp] theorem received_execute (c : Connection) (s : Statement) :
    (c.execute s).1.received = c.received ++ [⟨s.sql, s.params⟩] := by
  simp only [execute, receive]
  split <;> simp_all [Prod.ext_iff]
  all_goals
    rename_i h
    rw [← h.1]

@[simp] theorem received_query (c : Connection) (s : Statement) :
    (c.query s).1.received = c.received ++ [⟨s.sql, s.params⟩] := by
  simp only [query, receive]
  split <;> simp_all [Prod.ext_iff]
  all_goals
    rename_i h
    rw [← h.1]

end Connection

end RecordMapper
