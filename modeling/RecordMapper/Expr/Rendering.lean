import RecordMapper.Error
import RecordMapper.Expr.Basic
import RecordMapper.Statement.Basic

/-!
# Writing expressions as SQL

An expression is written together with its negation, because the negation of a comparison is the
reversed comparison and the negation of a negation is what stands inside. The folding rules are
applied at every node on the way. The expression itself is not changed.
-/

set_option autoImplicit false

namespace RecordMapper.Expr

/-- The SQL of an expression and of its negation. -/
structure Rendering where
  plain : Result Sql
  negated : Result Sql

/-- The rendering of an expression whose negation has no form of its own. -/
def Rendering.ofPlain (plain : Result Sql) : Rendering where
  plain := plain
  negated := do return Sql.text "NOT (" ++ (← plain) ++ Sql.text ")"

/-- `(left op right)`, or a test for `NULL` where the right side is one. -/
def renderBinary (left : Result Sql) (op : Operator) (rightIsNull : Bool) (right : Result Sql) :
    Result Sql := do
  let left ← left
  match op, rightIsNull with
  | .eq, true => return Sql.text "(" ++ left ++ Sql.text " IS NULL)"
  | .ne, true => return Sql.text "(" ++ left ++ Sql.text " IS NOT NULL)"
  | _, _ =>
    let right ← right
    return Sql.text "(" ++ left ++ Sql.text (" " ++ op.sign ++ " ") ++ right ++ Sql.text ")"

def renderLogical (left : Result Sql) (joiner : String) (right : Result Sql) : Result Sql := do
  let left ← left
  let right ← right
  return Sql.text "(" ++ left ++ Sql.text joiner ++ right ++ Sql.text ")"

def renderNamed (columns : String → Option String) (name : String) (value : Option Value) :
    Result Sql :=
  match columns name, value with
  | some column, _ => .ok (Sql.text column)
  | none, some v => .ok (Sql.param v)
  | none, none => .error (.unmappedField (.unknownVariable name))

/-- The SQL of an expression and of its negation; `columns` gives the SQL of the columns in
scope. -/
def rendering (columns : String → Option String) : Expr → Rendering
  | number s => .ofPlain (.ok (Sql.text s))
  | text s => .ofPlain (.ok (Sql.text (Text.literal s)))
  | null => .ofPlain (.ok (Sql.text "NULL"))
  | named name value => .ofPlain (renderNamed columns name value)
  | binary l op r =>
    let left := l.rendering columns
    let right := r.rendering columns
    if op = .ne ∧ r.isConstant "0" then left
    else
      let written (op : Operator) := renderBinary left.plain op (r = null) right.plain
      match op.reverse? with
      | some reversed => ⟨written op, written reversed⟩
      | none => .ofPlain (written op)
  | not e =>
    let inner := e.rendering columns
    ⟨inner.negated, inner.plain⟩
  | and l r => .ofPlain (renderLogical (l.rendering columns).plain " AND " (r.rendering columns).plain)
  | or l r => .ofPlain (renderLogical (l.rendering columns).plain " OR " (r.rendering columns).plain)
  | caseWhen c t f =>
    let condition := c.rendering columns
    let ifTrue := t.rendering columns
    let ifFalse := f.rendering columns
    if t.isConstant "0" then
      if f.isConstant "1" then ⟨condition.negated, condition.plain⟩
      else .ofPlain (renderLogical condition.negated " AND " ifFalse.plain)
    else if t.isConstant "1" && f.isConstant "0" then condition
    else .ofPlain do
      let condition ← condition.plain
      let ifTrue ← ifTrue.plain
      let ifFalse ← ifFalse.plain
      return Sql.text "CASE WHEN " ++ condition ++ Sql.text " THEN " ++ ifTrue ++
        Sql.text " ELSE " ++ ifFalse ++ Sql.text " END"
  | arrayGet a i => .ofPlain do
    let array ← (a.rendering columns).plain
    let index ← (i.rendering columns).plain
    return array ++ Sql.text "[" ++ index ++ Sql.text "]"

def render (columns : String → Option String) (e : Expr) : Result Sql := (e.rendering columns).plain

@[simp] theorem rendering_not (columns : String → Option String) (e : Expr) :
    (not e).render columns = (e.rendering columns).negated := rfl

@[simp] theorem render_not_not (columns : String → Option String) (e : Expr) :
    (not (not e)).render columns = e.render columns := rfl

end RecordMapper.Expr
