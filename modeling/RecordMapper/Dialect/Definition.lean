import RecordMapper.Dialect.Basic

/-!
# Statements that define tables

`CREATE TABLE`, `DROP TABLE` and `CREATE INDEX`. The primary key is declared behind the columns,
unless a single generated column declares it itself.
-/

set_option autoImplicit false

namespace RecordMapper.Dialect

/-- The generated column that is the whole primary key and declares it itself. -/
def inlineKeyColumn? (d : Dialect) (t : Table) : Option Column :=
  match d.inlineKey, t.primaryKey with
  | true, [key] => (t.column? key).filter (·.autoIncrement)
  | _, _ => none

def inlinePrimaryKey (d : Dialect) (t : Table) : Bool := (d.inlineKeyColumn? t).isSome

def columnDefinition (d : Dialect) (t : Table) (c : Column) : String :=
  if (d.inlineKeyColumn? t).any (·.name = c.name) then
    d.quote c.name ++ " INTEGER PRIMARY KEY AUTOINCREMENT"
  else
    let identity :=
      match c.autoIncrement, d.identityClause with
      | true, some clause => " " ++ clause
      | _, _ => ""
    d.quote c.name ++ " " ++ d.typeName c ++ identity ++ (if c.nullable then "" else " NOT NULL")

def createTable (d : Dialect) (t : Table) : Statement :=
  let head := "CREATE " ++ (if t.memoryTable && d.memoryTables then "MEMORY " else "") ++ "TABLE " ++
    (if d.ifNotExists then "IF NOT EXISTS " else "") ++ d.tableName t ++ " ("
  let key : Sql :=
    if t.hasPrimaryKey && !d.inlinePrimaryKey t then
      Sql.text ", PRIMARY KEY (" ++ d.names t.primaryKey ++ Sql.text ")"
    else []
  let columns := t.columns.map fun c => Sql.text (d.columnDefinition t c)
  d.statement (Sql.text head ++ Sql.commas columns ++ key ++ Sql.text ")")

def dropTable (d : Dialect) (t : Table) : Statement :=
  d.statement
    (Sql.text ("DROP TABLE " ++ (if d.ifNotExists then "IF EXISTS " else "") ++ d.tableName t))

def createIndex (d : Dialect) (t : Table) (i : Index) : Result Statement := do
  let kind ← d.indexSupport i.kind i.columns.length
  let unique := if kind.isUnique then "UNIQUE " else ""
  let place := d.quote i.name ++ " ON " ++ d.tableName t
  let columns := Sql.text " (" ++ d.names i.columns ++ Sql.text ")"
  let hash := Sql.text (if kind.isHash then " USING HASH" else "")
  let ifMissing := if d.ifNotExists then "IF NOT EXISTS " else ""
  match d.indexForm with
  | .leading =>
    let hash := if kind.isHash then "HASH " else ""
    return d.statement
      (Sql.text ("CREATE " ++ unique ++ hash ++ "INDEX " ++ ifMissing ++ place) ++ columns)
  | .trailing =>
    return d.statement (Sql.text ("CREATE " ++ unique ++ "INDEX " ++ place) ++ columns ++ hash)
  | .method =>
    return d.statement
      (Sql.text ("CREATE " ++ unique ++ "INDEX IF NOT EXISTS " ++ place) ++ hash ++ columns)

end RecordMapper.Dialect
