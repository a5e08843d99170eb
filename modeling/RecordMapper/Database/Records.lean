import RecordMapper.Database.Basic
import RecordMapper.Dialect.Manipulation

/-!
# Writing records

Records are inserted, updated, merged and deleted as the rows of their mapping. Each function gives
the number of rows that the connection reports.
-/

set_option autoImplicit false

namespace RecordMapper.Session

def insertRow (m : Mapping) (r : Record) : Session UInt64 := do
  let values ← ofResult (m.values r)
  execute (← ofResult ((← dialect).insert m.table values))

def insert (model : Model) (r : Record) : Session UInt64 := do
  insertRow (← describe model) r

/-- Inserts records in order, up to the first that fails, and gives the sum. -/
def insertRows (m : Mapping) : List Record → UInt64 → Session UInt64
  | [], sum => return sum
  | r :: rest, sum => do insertRows m rest (sum + (← insertRow m r))

def insertAll (model : Model) (rs : List Record) : Session UInt64 := do
  insertRows (← describe model) rs 0

def update (model : Model) (r : Record) : Session UInt64 := do
  let m ← describe model
  let values ← ofResult (m.values r)
  execute (← ofResult ((← dialect).update m.table values))

/-- Executes statements in order and gives the answer to the last. -/
def executeAll : List Statement → UInt64 → Session UInt64
  | [], last => return last
  | stmt :: rest, _ => do executeAll rest (← execute stmt)

def merge (model : Model) (r : Record) : Session UInt64 := do
  let m ← describe model
  let values ← ofResult (m.values r)
  executeAll (← ofResult ((← dialect).merge m.table values)) 0

def delete (model : Model) (r : Record) : Session UInt64 := do
  let m ← describe model
  let values ← ofResult (m.values r)
  execute (← ofResult ((← dialect).delete m.table values))

end RecordMapper.Session
