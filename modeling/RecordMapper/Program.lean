import RecordMapper.Workspace

/-!
# Programs

A program describes models, creates aliases and refills them, and draws sentinels of its own in
between, in any order.
-/

set_option autoImplicit false

namespace RecordMapper

/-- What a program does. Aliases are named by the order of their creation. -/
inductive Act
  | describe (model : Model)
  | create (model : Model)
  | refill (i : Nat)
  | reserve (n : Nat)
  | fresh (type : ValueType)
  | resetCounter
  | resetCatalog

structure Program where
  workspace : Workspace := {}
  /-- The aliases created so far, and of each whether its latest generation has succeeded. -/
  aliases : List (Alias × Bool) := []

namespace Program

/-- An alias that cannot be created does not come into being. -/
def create (p : Program) (model : Model) : Program :=
  match p.workspace.newAlias model with
  | (.ok a, workspace) => { workspace, aliases := p.aliases ++ [(a, true)] }
  | (.error _, workspace) => { p with workspace }

/-- An alias that cannot be refilled stays, with what the failed generation has made of it. -/
def refill (p : Program) (i : Nat) : Program :=
  match p.aliases[i]? with
  | some (a, _) =>
    let (filled, outcome, workspace) := p.workspace.refill a
    { workspace, aliases := p.aliases.set i (filled, outcome.isOk) }
  | none => p

def step (p : Program) : Act → Program
  | .describe model => { p with workspace := (p.workspace.describe model).2 }
  | .create model => p.create model
  | .refill i => p.refill i
  | .reserve n => { p with workspace := (p.workspace.reserve n).2 }
  | .fresh type => { p with workspace := (p.workspace.freshValue type).2 }
  | .resetCounter => { p with workspace := p.workspace.resetCounter }
  | .resetCatalog => { p with workspace := p.workspace.resetCatalog }

def run (acts : List Act) : Program := acts.foldl step {}

end Program

end RecordMapper
