import RecordMapper.Statement.Basic

/-!
# Building statements step by step

Beside plain appends a builder counts the items of a list: a separator is written before every
item but the first since the count was last reset.
-/

set_option autoImplicit false

namespace RecordMapper

inductive BuildStep
  | text (s : String)
  | number (n : Int)
  | separator (s : String)
  | resetCount
  | param (v : Value)
deriving DecidableEq

structure StatementBuilder where
  statement : Statement := {}
  /-- Items of the present list so far. -/
  items : Nat := 0

namespace StatementBuilder

def apply (b : StatementBuilder) : BuildStep → StatementBuilder
  | .text s => { b with statement := b.statement.append (Sql.text s) }
  | .number n => { b with statement := b.statement.append (Sql.text (Numeral.ofInt n)) }
  | .separator s =>
    { statement := if b.items = 0 then b.statement else b.statement.append (Sql.text s)
      items := b.items + 1 }
  | .resetCount => { b with items := 0 }
  | .param v => { b with statement := b.statement.append (Sql.param v) }

def run (style : PlaceholderStyle) (steps : List BuildStep) : Statement :=
  (steps.foldl apply { statement := { style } }).statement

/-- The steps that write a list: every item behind its separator. -/
def listSteps (separator : String) (items : List (List BuildStep)) : List BuildStep :=
  items.flatMap fun item => .separator separator :: item

end StatementBuilder

end RecordMapper
