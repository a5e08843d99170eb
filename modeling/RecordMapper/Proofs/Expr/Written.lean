import RecordMapper.Expr.Rendering

/-!
# The tree that is written

Rendering folds while it writes. Here the two are taken apart: `writing` gives the tree that is
written for an expression and the tree that is written for its negation, and `verbatim` writes a
tree as it stands. Trees in which `NULL` stands only behind `=` and `<>` are rendered by writing
their `written` tree verbatim.
-/

set_option autoImplicit false

namespace RecordMapper.Expr

/-- The trees that are written for an expression and for its negation. -/
structure Writing where
  plain : Expr
  negated : Expr

def Writing.ofPlain (e : Expr) : Writing := ⟨e, not e⟩

def writing : Expr → Writing
  | number s => .ofPlain (number s)
  | text s => .ofPlain (text s)
  | null => .ofPlain null
  | named name value => .ofPlain (named name value)
  | binary l op r =>
    if op = .ne ∧ r.isConstant "0" then l.writing
    else
      match op.reverse? with
      | some reversed =>
        ⟨binary l.writing.plain op r.writing.plain, binary l.writing.plain reversed r.writing.plain⟩
      | none => .ofPlain (binary l.writing.plain op r.writing.plain)
  | not e => ⟨e.writing.negated, e.writing.plain⟩
  | and l r => .ofPlain (and l.writing.plain r.writing.plain)
  | or l r => .ofPlain (or l.writing.plain r.writing.plain)
  | caseWhen c t f =>
    if t.isConstant "0" then
      if f.isConstant "1" then ⟨c.writing.negated, c.writing.plain⟩
      else .ofPlain (and c.writing.negated f.writing.plain)
    else if t.isConstant "1" && f.isConstant "0" then c.writing
    else .ofPlain (caseWhen c.writing.plain t.writing.plain f.writing.plain)
  | arrayGet a i => .ofPlain (arrayGet a.writing.plain i.writing.plain)

def written (e : Expr) : Expr := e.writing.plain

/-- The SQL of a tree as it stands, without any folding. -/
def verbatim (columns : String → Option String) : Expr → Result Sql
  | number s => .ok (Sql.text s)
  | text s => .ok (Sql.text (Text.literal s))
  | null => .ok (Sql.text "NULL")
  | named name value => renderNamed columns name value
  | binary l op r => renderBinary (l.verbatim columns) op (r = null) (r.verbatim columns)
  | not e => do return Sql.text "NOT (" ++ (← e.verbatim columns) ++ Sql.text ")"
  | and l r => renderLogical (l.verbatim columns) " AND " (r.verbatim columns)
  | or l r => renderLogical (l.verbatim columns) " OR " (r.verbatim columns)
  | caseWhen c t f => do
    let condition ← c.verbatim columns
    let ifTrue ← t.verbatim columns
    let ifFalse ← f.verbatim columns
    return Sql.text "CASE WHEN " ++ condition ++ Sql.text " THEN " ++ ifTrue ++
      Sql.text " ELSE " ++ ifFalse ++ Sql.text " END"
  | arrayGet a i => do
    let array ← a.verbatim columns
    let index ← i.verbatim columns
    return array ++ Sql.text "[" ++ index ++ Sql.text "]"

/-- `NULL` stands only behind `=` and `<>`, where it makes a test for `NULL`. -/
def NullFree : Expr → Prop
  | null => False
  | number _ | text _ | named _ _ => True
  | binary l op r => l.NullFree ∧ (r.NullFree ∨ r = null ∧ (op = .eq ∨ op = .ne))
  | not e => e.NullFree
  | and l r | or l r | arrayGet l r => l.NullFree ∧ r.NullFree
  | caseWhen c t f => c.NullFree ∧ t.NullFree ∧ f.NullFree

theorem NullFree.ne_null {e : Expr} (h : e.NullFree) : e ≠ null := by
  rintro rfl
  exact h

theorem NullFree.writing_ne_null {e : Expr} (h : e.NullFree) :
    e.writing.plain ≠ null ∧ e.writing.negated ≠ null := by
  induction e with
  | null => exact h.elim
  | number s => exact ⟨nofun, nofun⟩
  | text s => exact ⟨nofun, nofun⟩
  | named name value => exact ⟨nofun, nofun⟩
  | binary l op r ihl ihr =>
    rw [writing]
    split
    · exact ihl h.1
    · split <;> exact ⟨nofun, nofun⟩
  | not e ih => exact ⟨(ih h).2, (ih h).1⟩
  | and l r ihl ihr => exact ⟨nofun, nofun⟩
  | or l r ihl ihr => exact ⟨nofun, nofun⟩
  | caseWhen c t f ihc iht ihf =>
    rw [writing]
    split
    · split
      · exact ⟨(ihc h.1).2, (ihc h.1).1⟩
      · exact ⟨nofun, nofun⟩
    · split
      · exact ihc h.1
      · exact ⟨nofun, nofun⟩
  | arrayGet a i iha ihi => exact ⟨nofun, nofun⟩

section Columns
variable (columns : String → Option String)

/-- The rendering that writes both trees verbatim. -/
def Writing.rendering (w : Writing) : Rendering :=
  ⟨w.plain.verbatim columns, w.negated.verbatim columns⟩

@[simp] theorem Writing.rendering_swap (w : Writing) :
    Writing.rendering columns ⟨w.negated, w.plain⟩ =
      ⟨(w.rendering columns).negated, (w.rendering columns).plain⟩ := rfl

theorem NullFree.right_eq_null_iff {l r : Expr} {op : Operator} (h : (binary l op r).NullFree) :
    r.writing.plain = null ↔ r = null := by
  rcases h.2 with hr | ⟨rfl, -⟩
  · exact iff_of_false hr.writing_ne_null.1 hr.ne_null
  · exact iff_of_true rfl rfl

theorem rendering_eq_writing {e : Expr} (h : e.NullFree) :
    e.rendering columns = e.writing.rendering columns := by
  induction e with
  | null => exact h.elim
  | number s => rfl
  | text s => rfl
  | named name value => rfl
  | binary l op r ihl ihr =>
    have hnull := NullFree.right_eq_null_iff h
    have hright : r.rendering columns = r.writing.rendering columns := by
      rcases h.2 with hr | ⟨rfl, -⟩
      · exact ihr hr
      · rfl
    rw [rendering, writing]
    simp only [ihl h.1, hright]
    by_cases hzero : op = .ne ∧ r.isConstant "0" = true
    · rw [if_pos hzero, if_pos hzero]
    · rw [if_neg hzero, if_neg hzero]
      cases op.reverse? <;> simp only [Writing.rendering, Writing.ofPlain, Rendering.ofPlain,
        verbatim, hnull]
  | not e ih =>
    rw [rendering, writing]
    simp [ih h]
  | and l r ihl ihr =>
    rw [rendering, writing, ihl h.1, ihr h.2]
    rfl
  | or l r ihl ihr =>
    rw [rendering, writing, ihl h.1, ihr h.2]
    rfl
  | caseWhen c t f ihc iht ihf =>
    rw [rendering, writing]
    simp only [ihc h.1, iht h.2.1, ihf h.2.2]
    split
    · split
      · rfl
      · rfl
    · split
      · rfl
      · rfl
  | arrayGet a i iha ihi =>
    rw [rendering, writing]
    simp only [iha h.1, ihi h.2]
    rfl

theorem render_eq_verbatim {e : Expr} (h : e.NullFree) :
    e.render columns = e.written.verbatim columns := by
  rw [render, rendering_eq_writing columns h]
  rfl

end Columns

end RecordMapper.Expr
