import RecordMapper.Alias
import RecordMapper.Expr.Basic

/-!
# Queries

A query is built over an alias and the aliases joined to it. Each argument is resolved when it is
handed over: it denotes a column of one of the tables, or else a value. The first call that fails
is remembered, and its error is the answer to whatever is asked of the query in the end.
-/

set_option autoImplicit false

namespace RecordMapper

/-- A column of a query: the position of its table, the first being 0, and its own. -/
structure ColumnPosition where
  table : Nat
  column : Nat
deriving DecidableEq, Repr

inductive Operand
  | column (p : ColumnPosition)
  | value (v : Value)
deriving DecidableEq

inductive Predicate
  | compare (left : Operand) (op : Operator) (right : Operand)
  | like (operand : Operand) (pattern : String)
  | between (operand low high : Operand)
  | isNull (operand : Operand) (negated : Bool)
  | expr (e : Expr)
deriving DecidableEq

inductive Connective
  | and
  | or
deriving DecidableEq, Repr

def Connective.joiner : Connective → String
  | and => " AND "
  | or => " OR "

inductive JoinKind
  | inner
  | left
deriving DecidableEq, Repr

def JoinKind.keyword : JoinKind → String
  | inner => " INNER JOIN "
  | left => " LEFT JOIN "

structure Join where
  kind : JoinKind
  source : Alias
  on : List Predicate := []

structure Query where
  source : Alias
  joins : List Join := []
  filters : List (Connective × Predicate) := []
  grouping : List ColumnPosition := []
  ordering : List (ColumnPosition × Bool) := []
  assignments : List (ColumnPosition × Value) := []
  isDistinct : Bool := false
  limit : Option Nat := none
  offset : Option Nat := none
  /-- The error of the first call that failed. -/
  error : Option Error := none

inductive Test
  | compare (op : Operator) (right : Argument)
  | like (pattern : String)
  | between (low high : Argument)
  | isNull (negated : Bool)

inductive Target
  | filter (c : Connective)
  | on
deriving DecidableEq, Repr

namespace Query

def sources (q : Query) : List Alias := q.source :: q.joins.map (·.source)

def tables (q : Query) : List Table := q.sources.map (·.table)

def lookups (q : Query) (arg : Argument) : List Lookup :=
  q.sources.map (·.lookup arg.key? arg.columnRef?)

def firstCurrent? (table : Nat) : List Lookup → Option ColumnPosition
  | [] => none
  | .current column :: _ => some ⟨table, column⟩
  | _ :: rest => firstCurrent? (table + 1) rest

/-- The column that an argument denotes, if it denotes one. A present sentinel of any table goes
before a retired one of another. -/
def resolve (q : Query) (arg : Argument) : Result (Option ColumnPosition) :=
  match firstCurrent? 0 (q.lookups arg) with
  | some p => .ok (some p)
  | none =>
    if (q.lookups arg).contains .retired then .error (.unmappedField (.stale "value"))
    else
      match arg.columnRef? with
      | some c => .error (.unmappedField (.notInQuery c.table c.column))
      | none => .ok none

def column (q : Query) (arg : Argument) : Result ColumnPosition := do
  match ← q.resolve arg with
  | some p => return p
  | none => throw (.unmappedField (.notAColumn q.source.table.name))

def columnAt? (q : Query) (p : ColumnPosition) : Option Column :=
  (q.tables[p.table]?).bind (·.columns[p.column]?)

def context? (q : Query) : Operand → Option FieldContext
  | .column p => (q.columnAt? p).map (·.context)
  | .value _ => none

def operand (q : Query) (arg : Argument) (cx : Option FieldContext) : Result Operand := do
  match ← q.resolve arg with
  | some p => return .column p
  | none => return .value (← arg.literal cx)

/-- A value on the left side, encoded for the column on the right side. -/
def coerce (q : Query) (left right : Operand) : Result Operand :=
  match left, right with
  | .value v, .column p =>
    match q.columnAt? p with
    | some c => (v.convertToSql c.sqlType).map .value
    | none => .ok left
  | _, _ => .ok left

def predicate (q : Query) (left : Operand) : Test → Result Predicate
  | .compare op right => do
    let right ← q.operand right (q.context? left)
    return .compare (← q.coerce left right) op right
  | .like pattern => .ok (.like left pattern)
  | .between low high => do
    let low ← q.operand low (q.context? left)
    return .between left low (← q.operand high (q.context? left))
  | .isNull negated => .ok (.isNull left negated)

/-- Remembers the error if it is the first. -/
def fail (q : Query) (e : Error) : Query := { q with error := q.error.or (some e) }

/-- The query changed by what a call made, or its failure remembered. -/
def call {α : Type} (q : Query) (made : Result α) (change : Query → α → Query) : Query :=
  match made with
  | .ok a => change q a
  | .error e => q.fail e

def addOn (q : Query) (p : Predicate) : Query :=
  match q.joins.getLast? with
  | some last => { q with joins := q.joins.dropLast ++ [{ last with on := last.on ++ [p] }] }
  | none => q.fail (.unmappedField .noJoin)

def push (q : Query) (target : Target) (p : Predicate) : Query :=
  match target with
  | .filter c => { q with filters := q.filters ++ [(c, p)] }
  | .on => q.addOn p

def condition (q : Query) (target : Target) (left : Argument) (test : Test) : Query :=
  q.call (do q.predicate (← q.operand left none) test) fun q p => q.push target p

def filter (q : Query) (c : Connective) (left : Argument) (test : Test) : Query :=
  q.condition (.filter c) left test

def filterExpr (q : Query) (c : Connective) (e : Expr) : Query := q.push (.filter c) (.expr e)

/-- Joins an alias under the condition `left test`, which may mention it. -/
def join (q : Query) (kind : JoinKind) (source : Alias) (left : Argument) (test : Test) : Query :=
  let next : Join := { kind, source }
  condition { q with joins := q.joins ++ [next] } .on left test

def groupBy (q : Query) (field : Argument) : Query :=
  q.call (q.column field) fun q p => { q with grouping := q.grouping ++ [p] }

def orderBy (q : Query) (field : Argument) (descending : Bool) : Query :=
  q.call (q.column field) fun q p => { q with ordering := q.ordering ++ [(p, descending)] }

def distinct (q : Query) : Query := { q with isDistinct := true }

def limitTo (q : Query) (n : Nat) : Query := { q with limit := some n }

def startAt (q : Query) (n : Nat) : Query := { q with offset := some n }

def set (q : Query) (field value : Argument) : Query :=
  let assignment : Result (ColumnPosition × Value) := do
    let p ← q.column field
    return (p, ← value.literal (q.context? (.column p)))
  q.call assignment fun q a => { q with assignments := q.assignments ++ [a] }

@[simp] theorem error_fail (q : Query) (e : Error) : (q.fail e).error = some (q.error.getD e) := by
  cases h : q.error <;> simp [fail, h]

end Query

end RecordMapper
