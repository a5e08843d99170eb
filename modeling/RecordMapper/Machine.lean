import RecordMapper.Drawing
import RecordMapper.Program

/-!
# Programs whose parts run at the same time

Models are described, aliases created and filled anew by several parts of a program at once. What
they share is the counter, which hands out its values to one of them at a time, and the catalog.
Each description and each filling is a job; a scheduler decides whose next draw is carried out, so
that draws of one job may come between those of another. The draws of a job are those of
`Registry.generate`, by `Registry.alone_generating`.
-/

set_option autoImplicit false

namespace RecordMapper

/-- What a filling is for. -/
inductive Errand
  | build (model : Model) (described : Mapping)
  /-- The alias has this place among the aliases of the program, or is a new one. -/
  | fill (a : Alias) (place : Option Nat)

namespace Errand

def owner : Errand → Nat
  | build _ _ => refinementOwner
  | fill a _ => a.id

def fields : Errand → List FieldMapping
  | build _ described => described.fields
  | fill a _ => a.mapping.fields

def draws : Errand → Drawing Generation
  | build model described =>
    Registry.generating {} refinementOwner described.fields model.initial
  | fill a _ => a.registry.generating a.id a.mapping.fields a.record

/-- What is done with the record once it has been filled, or could not be. -/
def conclude (p : Program) (g : Generation) : Errand → Program
  | build model described =>
    let outcome : Result Mapping := do (← model.refined described g).sealed model.typeName
    { p with workspace := p.workspace.enter model outcome }
  | fill a place =>
    let filled : Alias := { a with registry := g.registry, record := g.record }
    match place, g.outcome with
    | some i, outcome => { p with aliases := p.aliases.set i (filled, outcome.isOk) }
    | none, .ok () => { p with aliases := p.aliases ++ [(filled, true)] }
    | none, .error _ => p

end Errand

structure Job where
  errand : Errand
  pending : Drawing Generation
  isOver : Bool := false

namespace Job

def builds (model : Model) (job : Job) : Bool :=
  match job.errand with
  | .build other _ => !job.isOver && other.id == model.id
  | .fill _ _ => false

def fills (i : Nat) (job : Job) : Bool :=
  match job.errand with
  | .fill _ place => !job.isOver && place == some i
  | .build _ _ => false

/-- The generation that the job has brought about, if it has succeeded. -/
def filled? (job : Job) : Option Generation :=
  match job.pending with
  | .done g => if g.outcome.isOk then some g else none
  | .draw _ _ => none

end Job

/-- A program at work. Jobs are numbered in the order in which they are begun. -/
structure Machine extends Program where
  jobs : List Job := []
  /-- Which job each value was given to that has been drawn, in order; some were drawn by none. -/
  ledger : List (Option Nat) := []

inductive Move
  | describe (model : Model)
  | create (model : Model)
  | refill (i : Nat)
  /-- Job `j` makes its next draw, or concludes. -/
  | proceed (j : Nat)
  | reserve (n : Nat)
  | fresh (type : ValueType)

namespace Machine

def begin (m : Machine) (errand : Errand) : Machine :=
  { m with jobs := m.jobs ++ [{ errand, pending := errand.draws }] }

/-- A model in the catalog is not described again, and nobody else describes one that is being
described. -/
def describe (m : Machine) (model : Model) : Machine :=
  if (m.workspace.catalog.lookup model.id).isSome || m.jobs.any (Job.builds model) then m
  else
    match (model.description.draft {}).finish model.typeName with
    | .error e => { m with workspace := m.workspace.enter model (.error e) }
    | .ok described => m.begin (.build model described)

def create (m : Machine) (model : Model) : Machine :=
  match m.workspace.catalog.lookup model.id with
  | some (.ok mapping) =>
    let a : Alias := { id := m.workspace.nextAlias, model, mapping, record := model.initial }
    let workspace := { m.workspace with nextAlias := m.workspace.nextAlias + 1 }
    begin { m with workspace } (.fill a none)
  | _ => m

/-- An alias that is being filled cannot be filled anew. -/
def refill (m : Machine) (i : Nat) : Machine :=
  match m.aliases[i]? with
  | some (a, _) => if m.jobs.any (Job.fills i) then m else m.begin (.fill a (some i))
  | none => m

/-- Hands out the next `n` values. -/
def draw (m : Machine) (n : Nat) (drawer : Option Nat) : Machine :=
  { m with
    workspace := (m.workspace.reserve n).2
    ledger := m.ledger ++ List.replicate n drawer }

def proceed (m : Machine) (j : Nat) : Machine :=
  match m.jobs[j]? with
  | none => m
  | some job =>
    match job.pending with
    | .draw n next =>
      let pending := next m.workspace.counter
      { m.draw n (some j) with jobs := m.jobs.set j { job with pending } }
    | .done g =>
      if job.isOver then m
      else
        { m with
          toProgram := job.errand.conclude m.toProgram g
          jobs := m.jobs.set j { job with isOver := true } }

def step (m : Machine) : Move → Machine
  | .describe model => m.describe model
  | .create model => m.create model
  | .refill i => m.refill i
  | .proceed j => m.proceed j
  | .reserve n => m.draw n none
  | .fresh _ => m.draw 1 none

def run (m : Machine) (moves : List Move) : Machine := moves.foldl step m

end Machine

end RecordMapper
