import RecordMapper.Statement.Basic

/-!
# Statements with their parameters written in

For logs, every placeholder is replaced by its parameter as a literal. Placeholder marks inside
quotes are text and stay.
-/

set_option autoImplicit false

namespace RecordMapper.Statement.Inlined

/-- Where the scan stands: between things, inside quotes, behind a `$`, or in the number behind
one. -/
inductive Position
  | plain
  | quoted (mark : Char)
  | dollar
  | number (n : Nat)
deriving DecidableEq, Repr

structure State where
  position : Position := .plain
  /-- The number of `?` seen. -/
  seen : Nat := 0
  /-- The output so far, last character first. -/
  output : List Char := []

variable (style : PlaceholderStyle) (params : List Value)

/-- The literal for the parameter at a position, counted from 0; a mark where there is none. -/
def literalAt (n : Nat) : String := (params[n]?.map Value.literal).getD "?"

def State.write (s : State) (text : List Char) : State :=
  { s with output := text.reverse ++ s.output }

/-- Writes what a `$` or a number behind it stands for, now that it has ended. -/
def State.settle (s : State) : State :=
  match s.position with
  | .dollar => { s.write ['$'] with position := .plain }
  | .number n => { s.write (literalAt params (n - 1)).toList with position := .plain }
  | _ => s

def State.plain (s : State) (c : Char) : State :=
  if c = '\'' ∨ c = '"' ∨ c = Char.ofNat 96 then { s.write [c] with position := .quoted c }
  else if c = '?' ∧ style = .positional then
    { s.write (literalAt params s.seen).toList with seen := s.seen + 1 }
  else if c = '$' ∧ style = .numbered then { s with position := .dollar }
  else s.write [c]

def State.step (s : State) (c : Char) : State :=
  match s.position, Numeral.digit? 10 c with
  | .quoted mark, _ => { s.write [c] with position := if c = mark then .plain else .quoted mark }
  | .dollar, some d => { s with position := .number d }
  | .number n, some d => { s with position := .number (n * 10 + d) }
  | _, _ => (s.settle params).plain style params c

def ofChars (cs : List Char) : List Char :=
  let final : State := cs.foldl (State.step style params) {}
  (final.settle params).output.reverse

end Inlined

def inlined (s : Statement) : String :=
  String.ofList (Inlined.ofChars s.style s.params s.sql.toList)

end RecordMapper.Statement
