import RecordMapper.Database.Basic
import RecordMapper.Dialect.Definition

/-!
# Creating and dropping tables
-/

set_option autoImplicit false

namespace RecordMapper.Session

def createIndexes (d : Dialect) (t : Table) : List Index → Session Unit
  | [] => return ()
  | i :: rest => do
    let _ ← execute (← ofResult (d.createIndex t i))
    createIndexes d t rest

/-- Creates the table of a model with its indexes, unless the settings or else the table say that
it is not to be created. -/
def createTable (model : Model) : Session Unit := do
  let t := (← describe model).table
  let wanted := (← get).database.settings.createIfMissing.getD t.createIfMissing
  if wanted then
    let d ← dialect
    let _ ← execute (d.createTable t)
    createIndexes d t t.indexes

def dropTable (model : Model) : Session Unit := do
  let t := (← describe model).table
  let _ ← execute ((← dialect).dropTable t)

end RecordMapper.Session
