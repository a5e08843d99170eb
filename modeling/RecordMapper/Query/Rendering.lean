import RecordMapper.Dialect.Basic
import RecordMapper.Expr.Rendering
import RecordMapper.Query.Basic

/-!
# Writing queries as SQL

In a `SELECT` the tables are called `T1`, `T2` and so on and columns carry the name of their table;
an `UPDATE` or `DELETE` concerns one table, and its columns stand alone.
-/

set_option autoImplicit false

namespace RecordMapper

structure Scope where
  dialect : Dialect
  tables : List Table
  qualified : Bool

namespace Scope

def columnName (s : Scope) (p : ColumnPosition) : String :=
  (((s.tables[p.table]?).bind (·.columns[p.column]?)).map (·.name)).getD ""

def column (s : Scope) (p : ColumnPosition) : String :=
  let name := s.dialect.quote (s.columnName p)
  if s.qualified then "T" ++ Numeral.ofNat (p.table + 1) ++ "." ++ name else name

def columns (s : Scope) (ps : List ColumnPosition) : Sql :=
  Sql.commas (ps.map fun p => Sql.text (s.column p))

/-- The first table that has a column of this name, from the table in position `i` on. -/
def findFrom (name : String) (i : Nat) : List Table → Option ColumnPosition
  | [] => none
  | t :: rest =>
    match t.columnIndex? name with
    | some column => some ⟨i, column⟩
    | none => findFrom name (i + 1) rest

def named? (s : Scope) (name : String) : Option String := (findFrom name 0 s.tables).map s.column

def operand (s : Scope) : Operand → Sql
  | .column p => Sql.text (s.column p)
  | .value v => Sql.param v

/-- The SQL of a condition. A comparison with the value null is a test for it. -/
def predicate (s : Scope) : Predicate → Result Sql
  | .compare left op right =>
    let test :=
      match op, right with
      | .eq, .value .null => Sql.text " IS NULL"
      | .ne, .value .null => Sql.text " IS NOT NULL"
      | _, _ => Sql.text (" " ++ op.sign ++ " ") ++ s.operand right
    .ok (Sql.text "(" ++ s.operand left ++ test ++ Sql.text ")")
  | .like operand pattern =>
    .ok (Sql.text "(" ++ s.operand operand ++ Sql.text " LIKE " ++ Sql.param (.text pattern) ++
      Sql.text ")")
  | .between operand low high =>
    .ok (Sql.text "(" ++ s.operand operand ++ Sql.text " BETWEEN " ++ s.operand low ++
      Sql.text " AND " ++ s.operand high ++ Sql.text ")")
  | .isNull operand negated =>
    .ok (Sql.text "(" ++ s.operand operand ++
      Sql.text (if negated then " IS NOT NULL)" else " IS NULL)"))
  | .expr e => e.render s.named?

def filters (s : Scope) : List (Connective × Predicate) → Result Sql
  | [] => .ok []
  | (_, first) :: rest => do
    let first ← s.predicate first
    let others ← rest.mapM fun (c, p) => do return Sql.text c.joiner ++ (← s.predicate p)
    return Sql.text " WHERE " ++ first ++ others.flatten

end Scope

inductive Projection
  | record
  | count
  | columns (ps : List ColumnPosition)
deriving DecidableEq

/-- A statement that is still to be written in some dialect, or the failure that comes before
any dialect is looked at. -/
abbrev StatementDraft := Result (Dialect → Result Statement)

namespace Query

def scope (q : Query) (d : Dialect) (qualified : Bool) : Scope := ⟨d, q.tables, qualified⟩

def checked (q : Query) : Result Unit :=
  match q.error with
  | some e => .error e
  | none => .ok ()

def projection (q : Query) (s : Scope) : Projection → Sql
  | .record => s.columns ((List.range q.source.table.columns.length).map fun i => ⟨0, i⟩)
  | .count => Sql.text "COUNT(*)"
  | .columns ps => s.columns ps

def joinClause (s : Scope) (j : Join) (i : Nat) : Result Sql := do
  let conditions ← j.on.mapM s.predicate
  let on := if conditions.isEmpty then [] else Sql.text " ON " ++ Sql.separated " AND " conditions
  return Sql.text (j.kind.keyword ++ s.dialect.tableName j.source.table ++ " T" ++ Numeral.ofNat (i + 1)) ++
    on

/-- The items of a list behind a keyword, nothing for an empty list. -/
def clause (keyword : String) (items : List Sql) : Sql :=
  if items.isEmpty then [] else Sql.text keyword ++ Sql.commas items

def orderItem (s : Scope) (item : ColumnPosition × Bool) : Sql :=
  Sql.text (s.column item.1) ++ (if item.2 then Sql.text " DESC" else [])

/-- The `SELECT` statement. A count pays no regard to `distinct` and to pages. -/
def writeSelect (q : Query) (projection : Projection) (d : Dialect) : Result Statement := do
  let s := q.scope d true
  let isCount := projection = .count
  let distinct := if q.isDistinct && !isCount then "DISTINCT " else ""
  let joins ← q.joins.zipIdx.mapM fun (j, i) => joinClause s j (i + 1)
  let filters ← s.filters q.filters
  let page ← if isCount then pure [] else d.page q.limit q.offset
  return d.statement
    (Sql.text ("SELECT " ++ distinct) ++ q.projection s projection ++
      Sql.text (" FROM " ++ d.tableName q.source.table ++ " T1") ++ joins.flatten ++ filters ++
      clause " GROUP BY " (q.grouping.map fun p => Sql.text (s.column p)) ++
      clause " ORDER BY " (q.ordering.map (orderItem s)) ++ page)

def writeUpdate (q : Query) (d : Dialect) : Result Statement := do
  let s := q.scope d false
  let assignments := q.assignments.map fun (p, v) =>
    Sql.text (s.column p ++ " = ") ++ Sql.param v
  return d.statement
    (Sql.text ("UPDATE " ++ d.tableName q.source.table ++ " SET ") ++ Sql.commas assignments ++
      (← s.filters q.filters))

def writeDelete (q : Query) (d : Dialect) : Result Statement := do
  return d.statement
    (Sql.text ("DELETE FROM " ++ d.tableName q.source.table) ++
      (← (q.scope d false).filters q.filters))

def selectDraft (q : Query) (projection : Projection) : StatementDraft := do
  q.checked
  return q.writeSelect projection

/-- The `SELECT` of single columns; their arguments are resolved before a remembered error is
looked at. -/
def rowsDraft (q : Query) (columns : List Argument) : StatementDraft := do
  q.selectDraft (.columns (← columns.mapM q.column))

/-- A statement on one table, which admits no joins. -/
def singleTableDraft (q : Query) (statement : String) (draft : StatementDraft) :
    StatementDraft := do
  q.checked
  if q.joins.isEmpty then draft else return fun d => .error (d.lacks (.joins statement))

def updateDraft (q : Query) : StatementDraft :=
  q.singleTableDraft "UPDATE" <|
    if q.assignments.isEmpty then .error (.unsupportedModel q.source.table.name .noAssignments)
    else .ok q.writeUpdate

def deleteDraft (q : Query) : StatementDraft := q.singleTableDraft "DELETE" (.ok q.writeDelete)

end Query

end RecordMapper
