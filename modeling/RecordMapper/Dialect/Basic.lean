import RecordMapper.Error
import RecordMapper.Statement.Basic
import RecordMapper.Table.Basic

/-!
# Dialects

A dialect is a record of the decisions in which database products differ: how identifiers are
quoted, which type names and clauses are used, how pages of rows are asked for, and which features
are missing. The statements are written from these decisions alone.
-/

set_option autoImplicit false

namespace RecordMapper

inductive Paging
  /-- `LIMIT` and `OFFSET`, each alone if need be. -/
  | limitOffset
  /-- An `OFFSET` needs a `LIMIT` before it; `everything` is the one that limits nothing. -/
  | limitFirst (everything : String)
  /-- `OFFSET n ROWS`, then `FETCH NEXT n ROWS ONLY`. -/
  | offsetFetch
  /-- There is none; `dialect` and `feature` are named in the error. -/
  | unsupported (dialect : String) (feature : Feature)
deriving DecidableEq, Repr

inductive HashIndexes
  /-- None: a unique one is made without hashing, a plain one is refused. -/
  | none
  /-- Plain ones over one column: a unique one is made without hashing. -/
  | oneColumn
  | all
deriving DecidableEq, Repr

inductive IndexForm
  /-- `CREATE HASH INDEX` -/
  | leading
  /-- `USING HASH` at the end. -/
  | trailing
  /-- `USING HASH` behind the table. -/
  | method
deriving DecidableEq, Repr

inductive MergeForm
  | unsupported
  | keyed
  | onDuplicateKey
  | onConflict
  | orReplace
  | deleteInsert
deriving DecidableEq, Repr

structure Dialect where
  product : Product
  identifierMark : Char := '"'
  ifNotExists : Bool := true
  memoryTables : Bool := false
  paging : Paging := .limitOffset
  hashIndexes : HashIndexes := .none
  indexForm : IndexForm := .leading
  mergeForm : MergeForm := .unsupported
  /-- The clause behind the type of a column whose values the database generates. -/
  identityClause : Option String := some "GENERATED BY DEFAULT AS IDENTITY"
  /-- Whether a single generated key column declares the key itself. -/
  inlineKey : Bool := false
  typeName : Column → String

namespace Dialect

def supportsPaging (d : Dialect) : Bool :=
  match d.paging with
  | .unsupported _ _ => false
  | _ => true

def statement (d : Dialect) (body : Sql := []) : Statement := ⟨.ofProduct d.product, body⟩

def quote (d : Dialect) (name : String) : String := Text.quoted d.identifierMark name

def tableName (d : Dialect) (t : Table) : String :=
  match t.schema with
  | some schema => d.quote schema ++ "." ++ d.quote t.name
  | none => d.quote t.name

def names (d : Dialect) (names : List String) : Sql :=
  Sql.commas (names.map fun name => Sql.text (d.quote name))

def lacks (d : Dialect) (feature : Feature) : Error := .unsupportedFeature d.product.name feature

/-- The kind of index that is made when `kind` is asked for over so many columns. -/
def indexSupport (d : Dialect) (kind : IndexKind) (columns : Nat) : Result IndexKind :=
  match d.hashIndexes, kind with
  | .none, .hash => .error (d.lacks .hashIndexes)
  | .none, kind => .ok kind.withoutHash
  | .oneColumn, .hash => if 1 < columns then .error (d.lacks .wideHashIndexes) else .ok .hash
  | .oneColumn, kind => .ok kind.withoutHash
  | .all, kind => .ok kind

def page (d : Dialect) (limit offset : Option Nat) : Result Sql :=
  let clause (keyword : String) (n : Option Nat) : Sql :=
    match n with
    | some n => Sql.text (keyword ++ Numeral.ofNat n)
    | none => []
  if limit.isNone && offset.isNone then .ok []
  else
    match d.paging with
    | .limitOffset => .ok (clause " LIMIT " limit ++ clause " OFFSET " offset)
    | .limitFirst everything =>
      match limit with
      | some _ => .ok (clause " LIMIT " limit ++ clause " OFFSET " offset)
      | none => .ok (Sql.text (" LIMIT " ++ everything) ++ clause " OFFSET " offset)
    | .offsetFetch =>
      let fetch : Sql :=
        match limit with
        | some n => Sql.text (" FETCH NEXT " ++ Numeral.ofNat n ++ " ROWS ONLY")
        | none => []
      .ok (Sql.text (" OFFSET " ++ Numeral.ofNat (offset.getD 0) ++ " ROWS") ++ fetch)
    | .unsupported dialect feature => .error (.unsupportedFeature dialect feature)

end Dialect

end RecordMapper
