import RecordMapper.Database.Queries
import RecordMapper.Database.Records
import RecordMapper.Query.Chain

/-!
# Operations on a database

A record is inserted, updated, merged or deleted, or a query is asked for one of its answers.
-/

set_option autoImplicit false

namespace RecordMapper

inductive Operation
  | insert (model : Model) (r : Record)
  | update (model : Model) (r : Record)
  | merge (model : Model) (r : Record)
  | delete (model : Model) (r : Record)
  | query (q : Query) (request : Request)

inductive Outcome
  | count (n : UInt64)
  | records (rs : List Record)
  | first (r : Option Record)
  | rows (answer : Rows)

def Query.perform (q : Query) : Request → Session Outcome
  | .select => do return .records (← q.select)
  | .first => do return .first (← q.selectFirst)
  | .count => do return .count (← q.count)
  | .rows columns => do return .rows (← q.rows columns)
  | .update => do return .count (← q.update)
  | .delete => do return .count (← q.delete)

def Operation.run : Operation → Session Outcome
  | insert model r => do return .count (← Session.insert model r)
  | update model r => do return .count (← Session.update model r)
  | merge model r => do return .count (← Session.merge model r)
  | delete model r => do return .count (← Session.delete model r)
  | query q request => q.perform request

end RecordMapper
