import RecordMapper.Proofs.Statement.Token

/-!
# What a statement does

The statements that write rows, read from their tokens: which table they are about, which value they
put into which column, by which columns they find their rows, and what they do when the row is there
already. Names are told from other quoted texts by their quote, which depends on the product. What
is read is the statement itself and nothing that is known about the table.
-/

set_option autoImplicit false

namespace RecordMapper

/-- The names of columns, each with a value. -/
abbrev NamedValues := List (String × Value)

/-- Where an assigned column takes its value from: the row that was to be inserted, or the row that
is there. -/
inductive Source
  | inserted (column : String)
  | present (column : String)
deriving DecidableEq

/-- What is done when the row is there already. -/
inductive Taken
  | refused
  | replaced
  | updated (assignments : List (String × Source))
deriving DecidableEq

structure Insertion where
  /-- The parts of the table's name. -/
  table : List String
  row : NamedValues
  /-- The columns by which a row is recognised, if the statement names them. -/
  key : List String := []
  taken : Taken := .refused
deriving DecidableEq

inductive Manipulation
  | insert (insertion : Insertion)
  | update (table : List String) (assignments condition : NamedValues)
  | delete (table : List String) (condition : NamedValues)
deriving DecidableEq

namespace Manipulation

open Token (word quoted value)

/-- The tokens before the first `close` and those behind it. -/
def cut? (close : Token) (ts : List Token) : Option (List Token × List Token) :=
  match ts.dropWhile (· ≠ close) with
  | [] => none
  | _ :: rest => some (ts.takeWhile (· ≠ close), rest)

/-- The items of a list. Between two of them stands a separator. -/
def items? {α : Type} (separator : Token) (item? : List Token → Option α) (ts : List Token) :
    Option (List α) :=
  if ts = [] then some [] else (ts.splitOn separator).mapM item?

variable (quote : Char)

def name? : List Token → Option String
  | [.quoted q name] => if q = quote then some name else none
  | _ => none

def value? : List Token → Option Value
  | [.value v] => some v
  | _ => none

/-- `name = value` -/
def cell? : List Token → Option (String × Value)
  | [name, .mark '=', .value v] => (name? quote [name]).map (·, v)
  | _ => none

/-- `name = VALUES(name)`, `name = EXCLUDED.name` or `name = name` -/
def assignment? : List Token → Option (String × Source)
  | [name, .mark '=', .word "VALUES", .mark '(', source, .mark ')'] => do
    return (← name? quote [name], .inserted (← name? quote [source]))
  | [name, .mark '=', .word "EXCLUDED", .mark '.', source] => do
    return (← name? quote [name], .inserted (← name? quote [source]))
  | [name, .mark '=', source] => do
    return (← name? quote [name], .present (← name? quote [source]))
  | _ => none

def names? (ts : List Token) : Option (List String) := items? (.mark ',') (name? quote) ts

def path? (ts : List Token) : Option (List String) := items? (.mark '.') (name? quote) ts

def condition? (ts : List Token) : Option NamedValues := items? (.word "AND") (cell? quote) ts

/-- `table (columns)` and what stands behind it -/
def target? (ts : List Token) : Option (List String × List String × List Token) := do
  let (table, ts) ← cut? (.mark '(') ts
  let (columns, ts) ← cut? (.mark ')') ts
  return (← path? quote table, ← names? quote columns, ts)

/-- `VALUES (values)`, one for each column, and what stands behind it -/
def row? (columns : List String) : List Token → Option (NamedValues × List Token)
  | .word "VALUES" :: .mark '(' :: ts => do
    let (values, ts) ← cut? (.mark ')') ts
    let values ← items? (.mark ',') value? values
    if columns.length = values.length then some (columns.zip values, ts) else none
  | _ => none

/-- The clause behind the values of an `INSERT`: the columns it names as the key, and what is done
when the key is taken. -/
def taken? : List Token → Option (List String × Taken)
  | [] => some ([], .refused)
  | .word "ON" :: .word "DUPLICATE" :: .word "KEY" :: .word "UPDATE" :: ts => do
    return ([], .updated (← items? (.mark ',') (assignment? quote) ts))
  | .word "ON" :: .word "CONFLICT" :: .mark '(' :: ts => do
    let (key, ts) ← cut? (.mark ')') ts
    let key ← names? quote key
    match ts with
    | [.word "DO", .word "NOTHING"] => return (key, .updated [])
    | .word "DO" :: .word "UPDATE" :: .word "SET" :: ts =>
      return (key, .updated (← items? (.mark ',') (assignment? quote) ts))
    | _ => none
  | _ => none

def insertion? (ts : List Token) : Option Insertion := do
  let (table, columns, ts) ← target? quote ts
  let (row, ts) ← row? columns ts
  let (key, taken) ← taken? quote ts
  return { table, row, key, taken }

def replacement? (ts : List Token) : Option Insertion := do
  let (table, columns, ts) ← target? quote ts
  match ← row? columns ts with
  | (row, []) => return { table, row, taken := .replaced }
  | _ => none

def merge? (ts : List Token) : Option Insertion := do
  let (table, columns, ts) ← target? quote ts
  match ts with
  | .word "KEY" :: .mark '(' :: ts =>
    let (key, ts) ← cut? (.mark ')') ts
    match ← row? columns ts with
    | (row, []) => return { table, row, key := ← names? quote key, taken := .replaced }
    | _ => none
  | _ => none

/-- What the tokens of a statement that writes rows say, if they are one. -/
def ofTokens? : List Token → Option Manipulation
  | .word "INSERT" :: .word "INTO" :: ts => (insertion? quote ts).map .insert
  | .word "INSERT" :: .word "OR" :: .word "REPLACE" :: .word "INTO" :: ts =>
    (replacement? quote ts).map .insert
  | .word "MERGE" :: .word "INTO" :: ts => (merge? quote ts).map .insert
  | .word "UPDATE" :: ts => do
    let (table, ts) ← cut? (.word "SET") ts
    let (assignments, condition) ← cut? (.word "WHERE") ts
    return .update (← path? quote table) (← items? (.mark ',') (cell? quote) assignments)
      (← condition? quote condition)
  | .word "DELETE" :: .word "FROM" :: ts => do
    let (table, condition) ← cut? (.word "WHERE") ts
    return .delete (← path? quote table) (← condition? quote condition)
  | _ => none

theorem cut?_append {close : Token} {inside : List Token} (h : close ∉ inside)
    (rest : List Token) : cut? close (inside ++ close :: rest) = some (inside, rest) := by
  have hall : ∀ t ∈ inside, decide (t ≠ close) = true := by
    intro t ht
    rw [decide_eq_true_eq]
    rintro rfl
    exact h ht
  rw [cut?, List.dropWhile_append_of_pos hall, List.takeWhile_append_of_pos hall,
    List.dropWhile_cons_of_neg (by simp), List.takeWhile_cons_of_neg (by simp), List.append_nil]

theorem not_mem_listed {α : Type} {t separator : Token} {write : α → List Token} {xs : List α}
    (hseparator : t ≠ separator) (h : ∀ x, t ∉ write x) :
    t ∉ Sql.listed separator (xs.map write) := by
  unfold Sql.listed
  induction xs using List.twoStepInduction with
  | nil => exact List.not_mem_nil
  | singleton x =>
    rw [List.map_singleton, List.intercalate_singleton]
    exact h x
  | cons_cons x y others _ ih =>
    rw [List.map_cons, List.map_cons, List.intercalate_cons_cons, List.mem_append,
      List.mem_append, List.mem_singleton]
    rintro ((hx | hx) | hx)
    · exact h x hx
    · exact hseparator hx
    · exact ih y hx

/-- Items that are not empty and do not contain the separator are read back. -/
theorem items?_listed {α : Type} {separator : Token} {item? : List Token → Option α}
    {write : α → List Token} (hread : ∀ x, item? (write x) = some x)
    (hseparator : ∀ x, separator ∉ write x) (hnonempty : ∀ x, write x ≠ []) (xs : List α) :
    items? separator item? (Sql.listed separator (xs.map write)) = some xs := by
  cases xs with
  | nil => rfl
  | cons x rest =>
    have hne : Sql.listed separator ((x :: rest).map write) ≠ [] := by
      rw [Sql.listed, List.map_cons]
      cases rest with
      | nil =>
        rw [List.map_nil, List.intercalate_singleton]
        exact hnonempty x
      | cons y others =>
        rw [List.map_cons, List.intercalate_cons_cons]
        simp
    have hmem : ∀ item ∈ (x :: rest).map write, separator ∉ item := by
      intro item hitem
      obtain ⟨y, -, rfl⟩ := List.mem_map.mp hitem
      exact hseparator y
    rw [items?, if_neg hne, Sql.listed, List.splitOn_intercalate separator hmem (by simp)]
    generalize x :: rest = ys
    induction ys with
    | nil => rfl
    | cons y others ih => rw [List.map_cons, List.mapM_cons, hread, ih]; rfl

end Manipulation

end RecordMapper
