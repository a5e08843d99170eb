import RecordMapper.Dialect.Basic

/-!
# Statements that write rows

Every statement takes one value per column of the table, in the order of the columns. Rows are
found by the primary key. Generated columns that hold null or zero are left out of an `INSERT`, so
that the database fills them.
-/

set_option autoImplicit false

namespace RecordMapper

namespace Table

def checkArity (t : Table) (values : List Value) : Result Unit :=
  if values.length = t.columns.length then .ok ()
  else .error (.unsupportedModel t.name (.arity t.columns.length values.length))

def requirePrimaryKey (t : Table) (operation : String) : Result Unit :=
  if t.hasPrimaryKey then .ok () else .error (.unsupportedModel t.name (.keyNeeded operation))

end Table

/-- Whether the database is to generate the value of the column. -/
def Column.isGenerated (c : Column) (v : Value) : Bool :=
  c.autoIncrement && (v.isNull || v.integer? = some 0)

namespace Dialect

def assignment (d : Dialect) (name : String) (v : Value) : Sql :=
  Sql.text (d.quote name ++ " = ") ++ Sql.param v

def valuesClause (d : Dialect) (t : Table) (cells : List (Column × Value)) : Sql :=
  Sql.text (d.tableName t ++ " (") ++ d.names (cells.map (·.1.name)) ++ Sql.text ") VALUES (" ++
    Sql.commas (cells.map fun cell => Sql.param cell.2) ++ Sql.text ")"

def keyCondition (d : Dialect) (t : Table) (values : List Value) : Result Sql := do
  let tests ← t.primaryKey.mapM fun key =>
    match (t.columnIndex? key).bind (values[·]?) with
    | some v => .ok (d.assignment key v)
    | none => .error (.unsupportedModel t.name (.keyMissing key))
  return Sql.text " WHERE " ++ Sql.separated " AND " tests

def insert (d : Dialect) (t : Table) (values : List Value) : Result Statement := do
  t.checkArity values
  let cells := (t.columns.zip values).filter fun (c, v) => !c.isGenerated v
  return d.statement (Sql.text "INSERT INTO " ++ d.valuesClause t cells)

def insertAll (d : Dialect) (t : Table) (values : List Value) : Sql :=
  Sql.text "INSERT INTO " ++ d.valuesClause t (t.columns.zip values)

/-- Assigns all columns outside the primary key. -/
def update (d : Dialect) (t : Table) (values : List Value) : Result Statement := do
  t.checkArity values
  t.requirePrimaryKey "update"
  let cells := (t.columns.zip values).filter fun (c, _) => !t.isPrimaryKey c.name
  if cells.isEmpty then throw (.unsupportedModel t.name .onlyKeyColumns)
  let condition ← d.keyCondition t values
  let assignments := Sql.commas (cells.map fun (c, v) => d.assignment c.name v)
  return d.statement
    (Sql.text ("UPDATE " ++ d.tableName t ++ " SET ") ++ assignments ++ condition)

def delete (d : Dialect) (t : Table) (values : List Value) : Result Statement := do
  t.checkArity values
  t.requirePrimaryKey "delete"
  return d.statement
    (Sql.text ("DELETE FROM " ++ d.tableName t) ++ (← d.keyCondition t values))

/-- What is done with the columns outside the key when the key is taken already; where there are
none, the first key column is assigned to itself. -/
def duplicateUpdates (d : Dialect) (t : Table) : Sql :=
  let others := t.otherColumns.map fun c =>
    Sql.text (d.quote c.name ++ " = VALUES(" ++ d.quote c.name ++ ")")
  if others.isEmpty then
    let key := d.quote (t.primaryKey.headD "")
    Sql.text (key ++ " = " ++ key)
  else Sql.commas others

def conflictAction (d : Dialect) (t : Table) : Sql :=
  let others := t.otherColumns.map fun c =>
    Sql.text (d.quote c.name ++ " = EXCLUDED." ++ d.quote c.name)
  if others.isEmpty then Sql.text " DO NOTHING"
  else Sql.text " DO UPDATE SET " ++ Sql.commas others

/-- The statements that insert the row or replace the row with the same key, in order. -/
def merge (d : Dialect) (t : Table) (values : List Value) : Result (List Statement) := do
  unless d.mergeForm = .unsupported do t.checkArity values
  t.requirePrimaryKey "merge"
  match d.mergeForm with
  | .unsupported => throw (d.lacks .merge)
  | .keyed =>
    let columns := d.names (t.columns.map (·.name))
    return [d.statement
      (Sql.text ("MERGE INTO " ++ d.tableName t ++ " (") ++ columns ++ Sql.text ") KEY (" ++
        d.names t.primaryKey ++ Sql.text ") VALUES (" ++ Sql.commas (values.map Sql.param) ++
        Sql.text ")")]
  | .onDuplicateKey =>
    return [d.statement
      (d.insertAll t values ++ Sql.text " ON DUPLICATE KEY UPDATE " ++ d.duplicateUpdates t)]
  | .onConflict =>
    return [d.statement
      (d.insertAll t values ++ Sql.text " ON CONFLICT (" ++ d.names t.primaryKey ++
        Sql.text ")" ++ d.conflictAction t)]
  | .orReplace =>
    return [d.statement
      (Sql.text "INSERT OR REPLACE INTO " ++ d.valuesClause t (t.columns.zip values))]
  | .deleteInsert => return [← d.delete t values, d.statement (d.insertAll t values)]

end Dialect

end RecordMapper
