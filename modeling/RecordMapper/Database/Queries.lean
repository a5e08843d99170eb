import RecordMapper.Database.Basic
import RecordMapper.Query.Rendering

/-!
# Running queries

A query is written in the dialect of the database and sent. The dialect is looked at only if the
query has not failed before.
-/

set_option autoImplicit false

namespace RecordMapper

namespace Session

def write (draft : StatementDraft) : Session Statement := do
  let write ← ofResult draft
  ofResult (write (← dialect))

end Session

namespace Query

def selectStatement (q : Query) : Session Statement := Session.write (q.selectDraft .record)

def countStatement (q : Query) : Session Statement := Session.write (q.selectDraft .count)

def rowsStatement (q : Query) (columns : List Argument) : Session Statement :=
  Session.write (q.rowsDraft columns)

def updateStatement (q : Query) : Session Statement := Session.write q.updateDraft

def deleteStatement (q : Query) : Session Statement := Session.write q.deleteDraft

def read (q : Query) (row : Row) : Result Record :=
  q.source.mapping.readRow q.source.model.initial row

def select (q : Query) : Session (List Record) := do
  let answer ← Session.query (← q.selectStatement)
  Session.ofResult (answer.rows.mapM q.read)

/-- The first record; one row is asked for unless the query has a limit. -/
def selectFirst (q : Query) : Session (Option Record) := do
  let answer ← Session.query (← selectStatement { q with limit := q.limit.or (some 1) })
  Session.ofResult (answer.first?.mapM q.read)

/-- The number in the only cell of a count; a negative one counts as none. -/
def countOf (answer : Rows) : Result UInt64 :=
  match ((answer.first?.bind (·.values[0]?)).bind Value.integer?) with
  | some n => .ok (UInt64.ofNat n.toNat)
  | none => .error (.execution "COUNT(*) returned no value" none)

def count (q : Query) : Session UInt64 := do
  Session.ofResult (countOf (← Session.query (← q.countStatement)))

def rows (q : Query) (columns : List Argument) : Session Rows := do
  Session.query (← q.rowsStatement columns)

def update (q : Query) : Session UInt64 := do
  Session.execute (← q.updateStatement)

def delete (q : Query) : Session UInt64 := do
  Session.execute (← q.deleteStatement)

end Query

end RecordMapper
