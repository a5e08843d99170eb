import RecordMapper.Query.Rendering

/-!
# Chains of calls

A query is an alias and the calls that are made on it one after the other; in the end one of its
statements is asked for.
-/

set_option autoImplicit false

namespace RecordMapper

inductive Call
  | filter (c : Connective) (left : Argument) (test : Test)
  | filterExpr (c : Connective) (e : Expr)
  | join (kind : JoinKind) (source : Alias) (left : Argument) (test : Test)
  | groupBy (field : Argument)
  | orderBy (field : Argument) (descending : Bool)
  | distinct
  | limitTo (n : Nat)
  | startAt (n : Nat)
  | set (field value : Argument)

inductive Request
  | select
  | first
  | count
  | rows (columns : List Argument)
  | update
  | delete

namespace Query

def apply (q : Query) : Call → Query
  | .filter c left test => q.filter c left test
  | .filterExpr c e => q.filterExpr c e
  | .join kind source left test => q.join kind source left test
  | .groupBy field => q.groupBy field
  | .orderBy field descending => q.orderBy field descending
  | .distinct => q.distinct
  | .limitTo n => q.limitTo n
  | .startAt n => q.startAt n
  | .set field value => q.set field value

/-- The query that a chain of calls makes of an alias. -/
def run (source : Alias) (calls : List Call) : Query := calls.foldl apply { source }

def draft (q : Query) : Request → StatementDraft
  | .select => q.selectDraft .record
  | .first => selectDraft { q with limit := q.limit.or (some 1) } .record
  | .count => q.selectDraft .count
  | .rows columns => q.rowsDraft columns
  | .update => q.updateDraft
  | .delete => q.deleteDraft

def answer (q : Query) (request : Request) (d : Dialect) : Result Statement := do
  (← q.draft request) d

end Query

end RecordMapper
