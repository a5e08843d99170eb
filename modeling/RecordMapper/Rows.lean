import RecordMapper.Value.Basic

/-!
# Result rows

The rows that a connection returns, under their column names. Columns are looked up without regard
to case, and the first of several equal names counts.
-/

set_option autoImplicit false

namespace RecordMapper

structure Row where
  columns : List String
  values : List Value
deriving DecidableEq

namespace Row

def get? (r : Row) (column : String) : Option Value :=
  (r.columns.findIdx? (Text.sameLetters · column)).bind (r.values[·]?)

end Row

structure Rows where
  columns : List String := []
  values : List (List Value) := []
deriving DecidableEq

namespace Rows

def rows (r : Rows) : List Row := r.values.map fun values => ⟨r.columns, values⟩

def first? (r : Rows) : Option Row := r.rows.head?

end Rows

end RecordMapper
