import RecordMapper.Proofs.Query.Chain
import RecordMapper.Proofs.Statement.Outline

/-!
# Masked queries

Of a masked value only whether it is null is left. A query and the query with its values masked are
written with the same outlines: nothing else of a value matters for the SQL.
-/

set_option autoImplicit false

namespace RecordMapper

def Value.masked (v : Value) : Value := if v.isNull then .null else .text ""

theorem Value.masked_eq_iff {v w : Value} : v.masked = w.masked ↔ v.isNull = w.isNull := by
  unfold masked
  cases v.isNull <;> cases w.isNull <;> decide

theorem Value.masked_eq_null_iff {v : Value} : v.masked = .null ↔ v = .null := by
  rw [← isNull_iff (v := v), masked]
  cases v.isNull <;> decide

def Operand.masked : Operand → Operand
  | .column p => .column p
  | .value v => .value v.masked

theorem Operand.masked_eq_null_iff {o : Operand} : o.masked = .value .null ↔ o = .value .null := by
  cases o with
  | column p => exact Iff.rfl
  | value v => rw [masked, value.injEq, value.injEq, Value.masked_eq_null_iff]

/-- The values that names are bound to are masked; constants stay. -/
def Expr.masked : Expr → Expr
  | .number s => .number s
  | .text s => .text s
  | .null => .null
  | .named name value => .named name (value.map Value.masked)
  | .binary l op r => .binary l.masked op r.masked
  | .not e => .not e.masked
  | .and l r => .and l.masked r.masked
  | .or l r => .or l.masked r.masked
  | .caseWhen c t f => .caseWhen c.masked t.masked f.masked
  | .arrayGet a i => .arrayGet a.masked i.masked

def Predicate.masked : Predicate → Predicate
  | .compare left op right => .compare left.masked op right.masked
  | .like operand _ => .like operand.masked ""
  | .between operand low high => .between operand.masked low.masked high.masked
  | .isNull operand negated => .isNull operand.masked negated
  | .expr e => .expr e.masked

def Join.masked (j : Join) : Join := { j with on := j.on.map Predicate.masked }

def Query.masked (q : Query) : Query :=
  { q with
    joins := q.joins.map Join.masked
    filters := q.filters.map fun (c, p) => (c, p.masked)
    assignments := q.assignments.map fun (p, v) => (p, v.masked) }

namespace Expr

@[simp] theorem isConstant_masked (e : Expr) (literal : String) :
    e.masked.isConstant literal = e.isConstant literal := by
  cases e <;> rfl

theorem masked_eq_null_iff {e : Expr} : e.masked = null ↔ e = null := by
  cases e <;> simp [masked]

def outlined (written : Result Sql) : Result Sql := written.map Sql.outline

structure Rendering.Alike (r r' : Rendering) : Prop where
  plain : outlined r.plain = outlined r'.plain
  negated : outlined r.negated = outlined r'.negated

theorem Rendering.Alike.refl (r : Rendering) : r.Alike r := ⟨rfl, rfl⟩

section Parts
variable {left left' right right' : Result Sql}

theorem Rendering.Alike.ofPlain (h : outlined left = outlined left') :
    (Rendering.ofPlain left).Alike (.ofPlain left') := by
  refine ⟨h, Result.map_bind_congr h ?_⟩
  intro sql sql' hsql
  change Except.ok _ = Except.ok _
  simp [hsql]

theorem outlined_renderBinary (hl : outlined left = outlined left')
    (hr : outlined right = outlined right') (op : Operator) (rightIsNull : Bool) :
    outlined (renderBinary left op rightIsNull right) =
      outlined (renderBinary left' op rightIsNull right') := by
  refine Result.map_bind_congr hl ?_
  intro l l' hleft
  split
  · change Except.ok _ = Except.ok _
    simp [hleft]
  · change Except.ok _ = Except.ok _
    simp [hleft]
  · refine Result.map_bind_congr hr ?_
    intro r r' hright
    change Except.ok _ = Except.ok _
    simp [hleft, hright]

theorem outlined_renderLogical (hl : outlined left = outlined left')
    (hr : outlined right = outlined right') (joiner : String) :
    outlined (renderLogical left joiner right) = outlined (renderLogical left' joiner right') := by
  refine Result.map_bind_congr hl ?_
  intro l l' hleft
  refine Result.map_bind_congr hr ?_
  intro r r' hright
  change Except.ok _ = Except.ok _
  simp [hleft, hright]

end Parts

theorem outlined_renderNamed (columns : String → Option String) (name : String)
    (value : Option Value) :
    outlined (renderNamed columns name (value.map Value.masked)) =
      outlined (renderNamed columns name value) := by
  unfold renderNamed
  cases columns name with
  | some column => rfl
  | none => cases value <;> rfl

/-- By induction on the expression: no rule looks at a value. -/
theorem rendering_masked (columns : String → Option String) (e : Expr) :
    (e.masked.rendering columns).Alike (e.rendering columns) := by
  induction e with
  | number s => exact .refl _
  | text s => exact .refl _
  | null => exact .refl _
  | named name value => exact .ofPlain (outlined_renderNamed columns name value)
  | binary l op r ihl ihr =>
    rw [masked, rendering, rendering]
    simp only [isConstant_masked, masked_eq_null_iff]
    split
    · exact ihl
    · split
      · exact ⟨outlined_renderBinary ihl.plain ihr.plain _ _,
          outlined_renderBinary ihl.plain ihr.plain _ _⟩
      · exact .ofPlain (outlined_renderBinary ihl.plain ihr.plain _ _)
  | not e ih => exact ⟨ih.negated, ih.plain⟩
  | and l r ihl ihr => exact .ofPlain (outlined_renderLogical ihl.plain ihr.plain _)
  | or l r ihl ihr => exact .ofPlain (outlined_renderLogical ihl.plain ihr.plain _)
  | caseWhen c t f ihc iht ihf =>
    rw [masked, rendering, rendering]
    simp only [isConstant_masked]
    split
    · split
      · exact ⟨ihc.negated, ihc.plain⟩
      · exact .ofPlain (outlined_renderLogical ihc.negated ihf.plain _)
    · split
      · exact ihc
      · refine .ofPlain (Result.map_bind_congr ihc.plain ?_)
        intro condition condition' hcondition
        refine Result.map_bind_congr iht.plain ?_
        intro ifTrue ifTrue' hifTrue
        refine Result.map_bind_congr ihf.plain ?_
        intro ifFalse ifFalse' hifFalse
        change Except.ok _ = Except.ok _
        simp [hcondition, hifTrue, hifFalse]
  | arrayGet a i iha ihi =>
    refine .ofPlain (Result.map_bind_congr iha.plain ?_)
    intro array array' harray
    refine Result.map_bind_congr ihi.plain ?_
    intro index index' hindex
    change Except.ok _ = Except.ok _
    simp [harray, hindex]

end Expr

namespace Scope
variable (s : Scope)

@[simp] theorem outline_operand (o : Operand) :
    (s.operand o.masked).outline = (s.operand o).outline := by
  cases o <;> rfl

theorem predicate_compare {left right : Operand} (op : Operator) (h : right ≠ .value .null) :
    s.predicate (.compare left op right) =
      .ok (Sql.text "(" ++ s.operand left ++
        (Sql.text (" " ++ op.sign ++ " ") ++ s.operand right) ++ Sql.text ")") := by
  rw [Scope.predicate]
  · exact fun _ hright => h hright
  · exact fun _ hright => h hright

/-- A comparison looks at the value on its right, but only whether it is null. -/
@[simp] theorem outlined_predicate_masked (p : Predicate) :
    (s.predicate p.masked).map Sql.outline = (s.predicate p).map Sql.outline := by
  cases p with
  | compare left op right =>
    by_cases hnull : right = .value .null
    · subst hnull
      change Except.ok _ = Except.ok _
      simp only [Sql.outline_append, outline_operand]
      rfl
    · have hmasked : right.masked ≠ .value .null := by
        rwa [ne_eq, Operand.masked_eq_null_iff]
      rw [Predicate.masked, predicate_compare s op hmasked, predicate_compare s op hnull]
      change Except.ok _ = Except.ok _
      simp
  | like operand pattern =>
    change Except.ok _ = Except.ok _
    simp
  | between operand low high =>
    change Except.ok _ = Except.ok _
    simp
  | isNull operand negated =>
    change Except.ok _ = Except.ok _
    simp
  | expr e => exact (Expr.rendering_masked s.named? e).plain

theorem outlined_filters_masked (conditions : List (Connective × Predicate)) :
    (s.filters (conditions.map fun (c, p) => (c, p.masked))).map Sql.outline =
      (s.filters conditions).map Sql.outline := by
  cases conditions with
  | nil => rfl
  | cons first rest =>
    rw [List.map_cons]
    refine Result.map_bind_congr (outlined_predicate_masked s first.2) ?_
    intro begun begun' hbegun
    rw [List.mapM_map]
    refine Result.map_bind_congr (g := List.map Sql.outline) (Result.map_mapM_congr ?_) ?_
    · rintro ⟨c, p⟩ _
      refine Result.map_bind_congr (outlined_predicate_masked s p) ?_
      intro written written' hwritten
      change Except.ok _ = Except.ok _
      rw [Sql.outline_append, Sql.outline_append, hwritten]
    · intro others others' hothers
      change Except.ok _ = Except.ok _
      simp [hbegun, hothers]

end Scope

namespace Query

@[simp] theorem sources_masked (q : Query) : q.masked.sources = q.sources := by
  rw [sources, sources, masked, List.map_map]
  rfl

@[simp] theorem tables_masked (q : Query) : q.masked.tables = q.tables := by
  rw [tables, tables, sources_masked]

@[simp] theorem scope_masked (q : Query) (d : Dialect) (qualified : Bool) :
    q.masked.scope d qualified = q.scope d qualified := by
  rw [scope, scope, tables_masked]

theorem outlined_joinClause_masked (s : Scope) (j : Join) (i : Nat) :
    (joinClause s j.masked i).map Sql.outline = (joinClause s j i).map Sql.outline := by
  unfold joinClause
  rw [Join.masked, List.mapM_map]
  refine Result.map_bind_congr (g := List.map Sql.outline)
    (Result.map_mapM_congr fun p _ => Scope.outlined_predicate_masked s p) ?_
  intro conditions conditions' hconditions
  have hempty := congrArg List.isEmpty hconditions
  rw [List.isEmpty_map, List.isEmpty_map] at hempty
  change Except.ok _ = Except.ok _
  rw [Sql.outline_append, Sql.outline_append, hempty]
  congr 2
  split
  · rfl
  · rw [Sql.outline_append, Sql.outline_append, Sql.outline_separated, Sql.outline_separated,
      hconditions]

variable (q : Query) (d : Dialect)

theorem outlined_writeSelect_masked (projection : Projection) :
    (q.masked.writeSelect projection d).map Statement.outline =
      (q.writeSelect projection d).map Statement.outline := by
  unfold writeSelect
  simp only [scope_masked]
  have hjoins : (q.masked.joins.zipIdx.mapM fun (j, i) => joinClause (q.scope d true) j (i + 1)).map
      (List.map Sql.outline) =
      (q.joins.zipIdx.mapM fun (j, i) => joinClause (q.scope d true) j (i + 1)).map
        (List.map Sql.outline) := by
    rw [masked, List.zipIdx_map, List.mapM_map]
    exact Result.map_mapM_congr fun x _ => outlined_joinClause_masked _ x.1 (x.2 + 1)
  refine Result.map_bind_congr hjoins ?_
  intro joins joins' hjoined
  refine Result.map_bind_congr (Scope.outlined_filters_masked _ q.filters) ?_
  intro filters filters' hfilters
  split
  · refine Result.map_bind_congr (g := id) rfl ?_
    rintro page _ rfl
    change Except.ok _ = Except.ok _
    simp only [Statement.outline, Dialect.statement, Sql.outline_append, Sql.outline_flatten,
      hjoined, hfilters]
    rfl
  · refine Result.map_bind_congr (g := id) rfl ?_
    rintro page _ rfl
    change Except.ok _ = Except.ok _
    simp only [Statement.outline, Dialect.statement, Sql.outline_append, Sql.outline_flatten,
      hjoined, hfilters]
    rfl

theorem outlined_writeUpdate_masked :
    (q.masked.writeUpdate d).map Statement.outline = (q.writeUpdate d).map Statement.outline := by
  unfold writeUpdate
  simp only [scope_masked]
  refine Result.map_bind_congr (Scope.outlined_filters_masked _ q.filters) ?_
  intro filters filters' hfilters
  change Except.ok _ = Except.ok _
  simp only [masked, Statement.outline, Dialect.statement, Sql.outline_append, Sql.outline_commas,
    List.map_map, hfilters]
  rfl

theorem outlined_writeDelete_masked :
    (q.masked.writeDelete d).map Statement.outline = (q.writeDelete d).map Statement.outline := by
  unfold writeDelete
  simp only [scope_masked]
  refine Result.map_bind_congr (Scope.outlined_filters_masked _ q.filters) ?_
  intro filters filters' hfilters
  change Except.ok _ = Except.ok _
  simp only [Statement.outline, Dialect.statement, Sql.outline_append, hfilters]
  rfl

end Query

end RecordMapper
