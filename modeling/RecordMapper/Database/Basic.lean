import RecordMapper.Connection
import RecordMapper.Dialect.Products
import RecordMapper.Statement.Inlined
import RecordMapper.Workspace

/-!
# Databases

A database is a connection with settings and the dialect that it speaks. The dialect is chosen when
it is first needed and kept. Every statement is logged and counted before it is sent, and a failure
that the connection reports is logged as well.
-/

set_option autoImplicit false

namespace RecordMapper

structure Settings where
  /-- The product whose dialect is used, whatever the connection reports. -/
  product : Option Product := none
  version : Option ProductVersion := none
  /-- Whether tables are created; goes before what the tables say. -/
  createIfMissing : Option Bool := none
  inlineParameters : Bool := false
deriving DecidableEq, Repr

structure Database where
  connection : Connection
  settings : Settings := {}
  dialect : Option Dialect := none

namespace Database

/-- The dialect that settings and connection lead to, with an event if the connection alone
decides. -/
def choose (db : Database) : Dialect × Option Event :=
  let reported := db.connection.product
  match db.settings.product, db.settings.version with
  | some p, version => (.ofProduct p (version.getD .zero), none)
  | none, some version => (.ofProduct (.detect reported) version, none)
  | none, none =>
    let version := Dialect.versionOf db.connection.version
    let d := Dialect.detect reported db.connection.version
    (d, some (.detected d.product version reported))

end Database

structure SessionState where
  workspace : Workspace
  database : Database

/-- Computations that use one database; a failure keeps what has happened before it. -/
abbrev Session := EStateM Error SessionState

namespace Session

def ofResult {α : Type} (r : Result α) : Session α :=
  match r with
  | .ok a => pure a
  | .error e => throw e

def inWorkspace {α : Type} (f : Workspace → Result α × Workspace) : Session α := do
  let s ← get
  let (outcome, workspace) := f s.workspace
  set { s with workspace }
  ofResult outcome

def log (e : Event) : Session Unit :=
  modify fun s => { s with workspace := s.workspace.log e }

def describe (model : Model) : Session Mapping := inWorkspace (·.describe model)

def dialect : Session Dialect := do
  let s ← get
  match s.database.dialect with
  | some d => return d
  | none =>
    let (d, event) := s.database.choose
    if let some e := event then log e
    modify fun s => { s with database.dialect := some d }
    return d

/-- Logs a statement and records it in the statistics. -/
def announce (stmt : Statement) : Session Unit := do
  let inlined := (← get).database.settings.inlineParameters
  let kind := StatementKind.classify stmt.sql
  log (.sent kind (if inlined then stmt.inlined else stmt.sql) stmt.params.length)
  modify fun s =>
    { s with workspace.statistics := s.workspace.statistics.record kind stmt.sql }

def send {α : Type} (way : Connection → Statement → Connection × Except DriverError α)
    (stmt : Statement) : Session α := do
  announce stmt
  let s ← get
  let (connection, answer) := way s.database.connection stmt
  set { s with database.connection := connection }
  match answer with
  | .ok a => return a
  | .error e =>
    log (.failed stmt.sql e.toError)
    throw e.toError

def execute (stmt : Statement) : Session UInt64 := send Connection.execute stmt

def query (stmt : Statement) : Session Rows := send Connection.query stmt

end Session

end RecordMapper
