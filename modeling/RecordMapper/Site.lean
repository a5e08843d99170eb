import RecordMapper.Database.Operation
import RecordMapper.Database.Tables

/-!
# Programs with databases

Several databases share one workspace. They are used one after the other, and each use succeeds or
fails; in between models are described, aliases are created, listeners are added and removed, and
the counts are set back to zero.
-/

set_option autoImplicit false

namespace RecordMapper

/-- The state in which a computation ends, whether it succeeds or fails. -/
def Session.after {α : Type} (x : Session α) (s : SessionState) : SessionState :=
  match x s with
  | .ok _ s' => s'
  | .error _ s' => s'

/-- What one database is used for. -/
inductive Usage
  | operation (op : Operation)
  | insertAll (model : Model) (rs : List Record)
  | createTable (model : Model)
  | dropTable (model : Model)
  | execute (stmt : Statement)
  | query (stmt : Statement)
  /-- The statement of a query is written and not sent. -/
  | write (q : Query) (request : Request)
  | dialect

def Usage.after (s : SessionState) : Usage → SessionState
  | operation op => op.run.after s
  | insertAll model rs => (Session.insertAll model rs).after s
  | createTable model => (Session.createTable model).after s
  | dropTable model => (Session.dropTable model).after s
  | execute stmt => (Session.execute stmt).after s
  | query stmt => (Session.query stmt).after s
  | write q request => (Session.write (q.draft request)).after s
  | dialect => Session.dialect.after s

structure Site where
  workspace : Workspace := {}
  databases : List Database := []

/-- Databases are named by the order in which they were opened. -/
inductive Command
  | connect (connection : Connection) (settings : Settings)
  | newAlias (model : Model)
  | refill (a : Alias)
  | use (i : Nat) (usage : Usage)
  | subscribe
  | unsubscribe (listener : Nat)
  | resetCounts

namespace Site

def onStatistics (s : Site) (change : Statistics → Statistics) : Site :=
  { s with workspace.statistics := change s.workspace.statistics }

/-- Uses a database; where there is none of this number, nothing is done. -/
def use (s : Site) (i : Nat) (usage : Usage) : Site :=
  match s.databases[i]? with
  | some database =>
    let used := usage.after ⟨s.workspace, database⟩
    { workspace := used.workspace, databases := s.databases.set i used.database }
  | none => s

/-- A connection has received nothing when its database is opened. -/
def step (s : Site) : Command → Site
  | .connect connection settings =>
    let opened : Database := { connection := { connection with received := [] }, settings }
    { s with databases := s.databases ++ [opened] }
  | .newAlias model => { s with workspace := (s.workspace.newAlias model).2 }
  | .refill a => { s with workspace := (s.workspace.refill a).2.2 }
  | .use i usage => s.use i usage
  | .subscribe => s.onStatistics fun t => t.subscribe.1
  | .unsubscribe listener => s.onStatistics fun t => (t.unsubscribe listener).1
  | .resetCounts => s.onStatistics Statistics.reset

def run (commands : List Command) : Site := commands.foldl step {}

/-- What each connection has received. -/
def logs (s : Site) : List (List Message) := s.databases.map (·.connection.received)

end Site

/-- What a program does. The catalog is not reset. -/
inductive Turn
  | describe (model : Model)
  | reserve (n : Nat)
  | command (c : Command)

namespace Site

def turn (s : Site) : Turn → Site
  | .describe model => { s with workspace := (s.workspace.describe model).2 }
  | .reserve n => { s with workspace := (s.workspace.reserve n).2 }
  | .command c => s.step c

def turns (s : Site) (ts : List Turn) : Site := ts.foldl turn s

end Site

end RecordMapper
