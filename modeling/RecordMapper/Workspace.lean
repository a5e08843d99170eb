import RecordMapper.Alias
import RecordMapper.Product
import RecordMapper.Statement.Statistics

/-!
# Workspaces

What all databases of a program share: the counter from which sentinels are drawn, the catalog of
described models, the statistics, and a log of events. A model is described when it is first
needed; the outcome is kept in the catalog, a failure as well as a mapping.
-/

set_option autoImplicit false

namespace RecordMapper

inductive Event
  | described (table : String) (columns : Nat)
  /-- A dialect has been chosen by what a connection reports; `reported` is its product name. -/
  | detected (product : Product) (version : ProductVersion) (reported : String)
  | sent (kind : StatementKind) (sql : String) (params : Nat)
  | failed (sql : String) (error : Error)
deriving DecidableEq

structure Workspace where
  counter : UInt32 := Sentinel.firstCount
  nextAlias : Nat := refinementOwner + 1
  /-- The outcomes of descriptions by the numbers of their models. -/
  catalog : List (Nat × Result Mapping) := []
  statistics : Statistics := {}
  events : List Event := []

namespace Workspace

def log (w : Workspace) (e : Event) : Workspace := { w with events := w.events ++ [e] }

/-- Takes the next `n` values of the counter and gives the first of them. -/
def reserve (w : Workspace) (n : Nat) : UInt32 × Workspace :=
  (w.counter, { w with counter := Sentinel.advance w.counter n })

def freshValue (w : Workspace) (type : ValueType) : Result Value × Workspace :=
  let (seq, w) := w.reserve 1
  (Sentinel.valueFor type seq, w)

def resetCounter (w : Workspace) : Workspace := { w with counter := Sentinel.firstCount }

/-- The workspace with the outcome of a description. -/
def enter (w : Workspace) (model : Model) (outcome : Result Mapping) : Workspace :=
  let entered := { w with catalog := (model.id, outcome) :: w.catalog }
  match outcome with
  | .ok m => entered.log (.described m.table.name m.table.columns.length)
  | .error _ => entered

/-- The mapping of a model, built if it is not in the catalog. -/
def describe (w : Workspace) (model : Model) : Result Mapping × Workspace :=
  match w.catalog.lookup model.id with
  | some outcome => (outcome, w)
  | none =>
    let (outcome, counter) := model.build w.counter
    (outcome, enter { w with counter } model outcome)

def resetCatalog (w : Workspace) : Workspace := { w with catalog := [] }

def newAlias (w : Workspace) (model : Model) : Result Alias × Workspace :=
  match w.describe model with
  | (.error e, w) => (.error e, w)
  | (.ok mapping, w) =>
    let a : Alias := { id := w.nextAlias, model, mapping, record := model.initial }
    let (filled, counter, outcome) := a.refill w.counter
    (outcome.map fun _ => filled, { w with counter, nextAlias := w.nextAlias + 1 })

def refill (w : Workspace) (a : Alias) : Alias × Result Unit × Workspace :=
  let (filled, counter, outcome) := a.refill w.counter
  (filled, outcome, { w with counter })

end Workspace

end RecordMapper
