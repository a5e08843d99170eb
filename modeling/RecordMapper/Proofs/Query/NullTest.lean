import RecordMapper.Proofs.Expr.Equality
import RecordMapper.Proofs.Query.Sections
import RecordMapper.Proofs.Query.Failure

/-!
# Where NULL is tested for

Of the comparisons `=` and `<>` only the right side is looked at: a value that is null there, or the
literal `NULL` in an expression, makes a test. A null on the left is written as any other value, and
in an expression also a variable that is bound to null and a right side that folds to `NULL`. So a
statement compares with null exactly if one of its conditions has such a comparison.
-/

set_option autoImplicit false

namespace RecordMapper

/-- A condition as it is written. -/
inductive ConditionForm
  | test (f : Form)
  | like (operand : Form) (pattern : String)
  | between (operand low high : Form)

namespace ConditionForm

def sql : ConditionForm → Sql
  | test f => f.sql
  | like operand pattern =>
    Sql.text "(" ++ operand.sql ++ Sql.text " LIKE " ++ Sql.param (.text pattern) ++ Sql.text ")"
  | between operand low high =>
    Sql.text "(" ++ operand.sql ++ Sql.text " BETWEEN " ++ low.sql ++ Sql.text " AND " ++
      high.sql ++ Sql.text ")"

/-- Some `=` or `<>` in the condition has a side that is null. -/
def EquatesNull : ConditionForm → Prop
  | test f => f.EquatesNull
  | like operand _ => operand.EquatesNull
  | between operand low high => operand.EquatesNull ∨ low.EquatesNull ∨ high.EquatesNull

end ConditionForm

theorem Sql.infix_separated (separator : String) {items : List Sql} {item : Sql}
    (h : item ∈ items) : item <:+: Sql.separated separator items := by
  induction items using List.twoStepInduction with
  | nil => cases h
  | singleton first =>
    obtain rfl := List.mem_singleton.mp h
    exact List.infix_rfl
  | cons_cons first next rest _ ih =>
    rw [Sql.separated]
    rcases List.mem_cons.mp h with rfl | h
    · rw [List.append_assoc]
      exact (List.prefix_append _ _).isInfix
    · exact (ih next h).trans (List.suffix_append _ _).isInfix

namespace Scope
variable {s : Scope} {p : Predicate}

def conditionForm (s : Scope) : Predicate → Result ConditionForm
  | .compare left op right =>
    .ok (.test (if op.testsNull ∧ right = .value .null then .isNull (s.operandForm left) (op = .ne)
      else .binary (s.operandForm left) op (s.operandForm right)))
  | .like operand pattern => .ok (.like (s.operandForm operand) pattern)
  | .between operand low high =>
    .ok (.between (s.operandForm operand) (s.operandForm low) (s.operandForm high))
  | .isNull operand negated => .ok (.test (.isNull (s.operandForm operand) negated))
  | .expr e => (e.form s.names).map .test

section Compare
variable {left right : Operand} {op : Operator}

theorem predicate_tested (h : op.testsNull = true) :
    s.predicate (.compare left op (.value .null)) =
      .ok (Sql.text "(" ++ s.operand left ++
        Sql.text (if op = .ne then " IS NOT NULL" else " IS NULL") ++ Sql.text ")") := by
  cases op with
  | eq => rfl
  | ne => rfl
  | _ => cases h

theorem predicate_not_tested (h : ¬(op.testsNull = true ∧ right = .value .null)) :
    s.predicate (.compare left op right) =
      .ok (Sql.text "(" ++ s.operand left ++
        (Sql.text (" " ++ op.sign ++ " ") ++ s.operand right) ++ Sql.text ")") := by
  by_cases hnull : right = .value .null
  · subst hnull
    cases op with
    | eq => exact absurd ⟨rfl, rfl⟩ h
    | ne => exact absurd ⟨rfl, rfl⟩ h
    | _ => rfl
  · exact predicate_compare s op hnull

end Compare

/-- What is written for a condition is its form. -/
theorem exists_conditionForm {sql : Sql} (h : s.predicate p = .ok sql) :
    ∃ f, s.conditionForm p = .ok f ∧ f.sql.atoms = sql.atoms := by
  cases p with
  | compare left op right =>
    refine ⟨_, rfl, ?_⟩
    by_cases htest : op.testsNull = true ∧ right = .value .null
    · rw [if_pos htest]
      obtain ⟨htests, rfl⟩ := htest
      rw [predicate_tested htests] at h
      obtain rfl := Except.ok.inj h
      simp only [ConditionForm.sql, Form.sql, sql_operandForm, Sql.atoms_append, Sql.atoms_text,
        List.append_assoc]
      by_cases hne : op = .ne
      · simp [hne, Sql.chars]
      · simp [hne, Sql.chars]
    · rw [if_neg htest]
      rw [predicate_not_tested htest] at h
      obtain rfl := Except.ok.inj h
      simp [ConditionForm.sql, Form.sql]
  | like operand pattern =>
    obtain rfl := Except.ok.inj h
    exact ⟨_, rfl, by rw [ConditionForm.sql, sql_operandForm]⟩
  | between operand low high =>
    obtain rfl := Except.ok.inj h
    exact ⟨_, rfl, by simp [ConditionForm.sql]⟩
  | isNull operand negated =>
    obtain rfl := Except.ok.inj h
    exact ⟨_, rfl, by rw [ConditionForm.sql, Form.sql, sql_operandForm]⟩
  | expr e =>
    have hrender : e.render (fun n => (s.names n).map QualifiedName.text) = .ok sql := by
      rw [← named?_eq]
      exact h
    rw [Expr.render_eq_form] at hrender
    obtain ⟨f, hf, rfl⟩ := Result.map_eq_ok_iff.mp hrender
    exact ⟨.test f, by rw [conditionForm, hf]; rfl, rfl⟩

/-- A comparison with null in the condition that makes no test. -/
def EquatesNull (s : Scope) : Predicate → Prop
  | .compare left op right => op.testsNull = true ∧ left = .value .null ∧ right ≠ .value .null
  | .expr e => e.EquatesNull s.names
  | _ => False

theorem isNullTerm_operandForm_iff {o : Operand} :
    (s.operandForm o).IsNullTerm ↔ o = .value .null := by
  cases o <;> simp [operandForm, Form.IsNullTerm]

@[simp] theorem equalities_operandForm (o : Operand) : (s.operandForm o).equalities = [] := by
  cases o <;> rfl

theorem not_equatesNull_operandForm (o : Operand) : ¬(s.operandForm o).EquatesNull := by
  simp [Form.EquatesNull]

theorem not_equatesNull_isNull (o : Operand) (negated : Bool) :
    ¬(Form.isNull (s.operandForm o) negated).EquatesNull := by
  simp [Form.EquatesNull, Form.equalities]

theorem equatesNull_binary_iff {left right : Operand} {op : Operator} :
    (Form.binary (s.operandForm left) op (s.operandForm right)).EquatesNull ↔
      op.testsNull = true ∧ (left = .value .null ∨ right = .value .null) := by
  simp only [Form.EquatesNull, Form.equalities, equalities_operandForm, List.append_nil]
  split
  · next htests => simp [isNullTerm_operandForm_iff, htests]
  · next htests => simp [htests]

/-- A condition compares with null as it is written exactly if it does so without a test. -/
theorem equatesNull_iff {f : ConditionForm} (h : s.conditionForm p = .ok f) :
    f.EquatesNull ↔ s.EquatesNull p := by
  cases p with
  | compare left op right =>
    obtain rfl := Except.ok.inj h
    by_cases htest : op.testsNull = true ∧ right = .value .null
    · rw [if_pos htest]
      exact iff_of_false (not_equatesNull_isNull left _) fun h => h.2.2 htest.2
    · rw [if_neg htest]
      refine equatesNull_binary_iff.trans ⟨?_, fun h => ⟨h.1, .inl h.2.1⟩⟩
      rintro ⟨htests, hleft | hright⟩
      · exact ⟨htests, hleft, fun hright => htest ⟨htests, hright⟩⟩
      · exact absurd ⟨htests, hright⟩ htest
  | like operand pattern =>
    obtain rfl := Except.ok.inj h
    exact iff_of_false (not_equatesNull_operandForm operand) id
  | between operand low high =>
    obtain rfl := Except.ok.inj h
    refine iff_of_false ?_ id
    rintro (hnull | hnull | hnull) <;> exact not_equatesNull_operandForm _ hnull
  | isNull operand negated =>
    obtain rfl := Except.ok.inj h
    exact iff_of_false (not_equatesNull_isNull operand negated) id
  | expr e =>
    obtain ⟨form, hform, rfl⟩ := Result.map_eq_ok_iff.mp h
    exact Expr.equatesNull_form_iff hform

/-- The condition is written somewhere in the text. -/
def Shows (s : Scope) (body : Sql) (p : Predicate) : Prop :=
  ∃ sql, s.predicate p = .ok sql ∧ sql <:+: body

section Shows
variable {a b : Sql}

theorem Shows.mono (h : s.Shows a p) (hab : a <:+: b) : s.Shows b p := by
  obtain ⟨sql, hsql, hin⟩ := h
  exact ⟨sql, hsql, hin.trans hab⟩

theorem Shows.left (h : s.Shows a p) : s.Shows (a ++ b) p :=
  h.mono (List.prefix_append a b).isInfix

theorem Shows.right (h : s.Shows b p) : s.Shows (a ++ b) p :=
  h.mono (List.suffix_append a b).isInfix

end Shows

theorem shows_filters {filters : List (Connective × Predicate)} {sql : Sql}
    (h : s.filters filters = .ok sql) {f : Connective × Predicate} (hf : f ∈ filters) :
    s.Shows sql f.2 := by
  cases filters with
  | nil => cases hf
  | cons first rest =>
    obtain ⟨begun, hbegun, h⟩ := Result.bind_eq_ok_iff.mp h
    obtain ⟨others, hothers, h⟩ := Result.bind_eq_ok_iff.mp h
    obtain rfl := Except.ok.inj h
    rcases List.mem_cons.mp hf with rfl | hf
    · exact ⟨begun, hbegun, List.infix_append _ _ _⟩
    · obtain ⟨other, hmem, hother⟩ := Result.exists_mem_of_mapM_eq_ok hothers hf
      obtain ⟨written, hwritten, hother⟩ := Result.bind_eq_ok_iff.mp hother
      obtain rfl := Except.ok.inj hother
      have hshown : s.Shows written f.2 := ⟨written, hwritten, List.infix_rfl⟩
      exact (hshown.right.mono (List.infix_of_mem_flatten hmem)).right

theorem shows_joinClause {j : Join} {i : Nat} {sql : Sql} (h : Query.joinClause s j i = .ok sql)
    (hp : p ∈ j.on) : s.Shows sql p := by
  obtain ⟨conditions, hconditions, h⟩ := Result.bind_eq_ok_iff.mp h
  obtain rfl := Except.ok.inj h
  obtain ⟨written, hmem, hwritten⟩ := Result.exists_mem_of_mapM_eq_ok hconditions hp
  have hne : conditions.isEmpty = false := by
    rw [Bool.eq_false_iff, ne_eq, List.isEmpty_iff]
    exact List.ne_nil_of_mem hmem
  have hshown : s.Shows (Sql.separated " AND " conditions) p :=
    ⟨written, hwritten, Sql.infix_separated _ hmem⟩
  rw [hne]
  exact hshown.right.right

end Scope

namespace Query
variable {q : Query} {d : Dialect} {statement : Statement}

theorem shows_writeSelect {projection : Projection}
    (h : q.writeSelect projection d = .ok statement) :
    q.Conditions ((q.scope d true).Shows statement.body) := by
  obtain ⟨joins, hjoins, h⟩ := Result.bind_eq_ok_iff.mp h
  obtain ⟨filters, hfilters, h⟩ := Result.bind_eq_ok_iff.mp h
  obtain ⟨page, -, h⟩ := Result.exists_of_ite_bind_eq_ok h
  obtain rfl := Except.ok.inj h
  constructor
  · intro f hf
    exact (Scope.shows_filters hfilters hf).right.left.left.left
  · intro j hj p hp
    obtain ⟨i, hi, hget⟩ := List.getElem_of_mem hj
    have hindexed : (j, i) ∈ q.joins.zipIdx :=
      List.mk_mem_zipIdx_iff_getElem?.mpr (by simp [hi, hget])
    obtain ⟨written, hmem, hwritten⟩ := Result.exists_mem_of_mapM_eq_ok hjoins hindexed
    have hshown := (Scope.shows_joinClause hwritten hp).mono (List.infix_of_mem_flatten hmem)
    exact hshown.right.left.left.left.left

theorem conditions_of_joins_eq_nil {P : Predicate → Prop} (hjoins : q.joins = [])
    (hfilters : ∀ f ∈ q.filters, P f.2) : q.Conditions P := by
  refine ⟨hfilters, ?_⟩
  intro j hj
  rw [hjoins] at hj
  cases hj

theorem shows_writeUpdate (hjoins : q.joins = []) (h : q.writeUpdate d = .ok statement) :
    q.Conditions ((q.scope d false).Shows statement.body) := by
  obtain ⟨filters, hfilters, h⟩ := Result.bind_eq_ok_iff.mp h
  obtain rfl := Except.ok.inj h
  exact conditions_of_joins_eq_nil hjoins fun f hf => (Scope.shows_filters hfilters hf).right

theorem shows_writeDelete (hjoins : q.joins = []) (h : q.writeDelete d = .ok statement) :
    q.Conditions ((q.scope d false).Shows statement.body) := by
  obtain ⟨filters, hfilters, h⟩ := Result.bind_eq_ok_iff.mp h
  obtain rfl := Except.ok.inj h
  exact conditions_of_joins_eq_nil hjoins fun f hf => (Scope.shows_filters hfilters hf).right

/-- Every condition of the query stands in the statement that is answered. -/
theorem shows_answer {request : Request} (h : q.answer request d = .ok statement) :
    q.Conditions ((q.scopeOf d request).Shows statement.body) := by
  obtain ⟨-, hwritten⟩ := write_of_answer h
  cases request with
  | select => exact shows_writeSelect hwritten
  | first =>
    have hlimited : Conditions ((q.scope d true).Shows statement.body)
        { q with limit := q.limit.or (some 1) } := shows_writeSelect hwritten
    exact ⟨hlimited.filters, hlimited.joins⟩
  | count => exact shows_writeSelect hwritten
  | rows columns =>
    obtain ⟨ps, -, hwritten⟩ := Result.bind_eq_ok_iff.mp hwritten
    exact shows_writeSelect hwritten
  | update => exact shows_writeUpdate (joins_eq_nil_of_singleTableDraft h) hwritten
  | delete => exact shows_writeDelete (joins_eq_nil_of_singleTableDraft h) hwritten

theorem coerce_eq_null_iff {left right coerced : Operand} (h : q.coerce left right = .ok coerced) :
    coerced = .value .null ↔ left = .value .null := by
  rw [← Operand.masked_eq_null_iff (o := coerced), masked_coerce h, Operand.masked_eq_null_iff]

/-- A comparison that a call adds misses its test exactly if the left argument alone is null. -/
theorem equatesNull_tested_iff (s : Scope) {left right : Argument} {op : Operator} {p : Predicate}
    (h : q.tested left (.compare op right) = .ok p) :
    s.EquatesNull p ↔ op.testsNull = true ∧ q.operand left none = .ok (.value .null) ∧
      q.operand right none ≠ .ok (.value .null) := by
  obtain ⟨leftOperand, hleft, h⟩ := Result.bind_eq_ok_iff.mp h
  obtain ⟨rightOperand, hright, h⟩ := Result.bind_eq_ok_iff.mp h
  obtain ⟨coerced, hcoerced, h⟩ := Result.bind_eq_ok_iff.mp h
  obtain rfl := Except.ok.inj h
  rw [Scope.EquatesNull, coerce_eq_null_iff hcoerced, hleft, Except.ok.injEq]
  refine and_congr_right fun _ => and_congr_right ?_
  -- Beside a value nothing is known of the column, so the right side is encoded by itself.
  rintro rfl
  have hplain : q.operand right none = .ok rightOperand := hright
  rw [hplain, ne_eq, ne_eq, Except.ok.injEq]

/-- How a condition stands in a statement, with regard to null. -/
structure TestsNull (s : Scope) (body : Sql) (p : Predicate) (f : ConditionForm) : Prop where
  form : s.conditionForm p = .ok f
  shown : f.sql.atoms <:+: body.atoms
  /-- A value on the right that is null makes a test. -/
  tested : ∀ left op, p = .compare left op (.value .null) → op.testsNull = true →
    f = .test (.isNull (s.operandForm left) (op = .ne))
  /-- So does the literal `NULL` in an expression; other comparisons keep their sides. -/
  sides : ∀ e, p = .expr e →
    ∃ g, f = .test g ∧ List.Forall₂ (Expr.SidesWritten s.names) e.equated g.equalities
  /-- Null is left on a side exactly where no test is made for it. -/
  equatesNull_iff : f.EquatesNull ↔ s.EquatesNull p

theorem testsNull_of_shows {s : Scope} {body : Sql} {p : Predicate} (h : s.Shows body p) :
    ∃ f, TestsNull s body p f := by
  obtain ⟨sql, hsql, before, after, hbody⟩ := h
  obtain ⟨f, hf, hatoms⟩ := Scope.exists_conditionForm hsql
  refine ⟨f, hf, ⟨Sql.atoms before, Sql.atoms after, ?_⟩, ?_, ?_, Scope.equatesNull_iff hf⟩
  · rw [hatoms, ← Sql.atoms_append, ← Sql.atoms_append, hbody]
  · rintro left op rfl htests
    obtain rfl := Except.ok.inj hf
    rw [if_pos ⟨htests, rfl⟩]
  · rintro e rfl
    obtain ⟨g, hg, rfl⟩ := Result.map_eq_ok_iff.mp hf
    exact ⟨g, rfl, Expr.equalities_form hg⟩

/-- In every statement a comparison by `=` or `<>` is a test if its right side is a value that is
null or the literal `NULL`, and otherwise it keeps both sides. So null is compared with exactly if a
call puts it on the left of what is not null, or if in an expression one of the sides that are kept
is null once it is folded. -/
theorem null_tested_on_right {request : Request} (h : q.answer request d = .ok statement) :
    q.Conditions (fun p => ∃ f, TestsNull (q.scopeOf d request) statement.body p f) ∧
      ∀ (before : Query) left op right p, before.tested left (.compare op right) = .ok p →
        ((q.scopeOf d request).EquatesNull p ↔ op.testsNull = true ∧
          before.operand left none = .ok (.value .null) ∧
            before.operand right none ≠ .ok (.value .null)) := by
  have hshown := shows_answer h
  refine ⟨⟨fun f hf => testsNull_of_shows (hshown.filters f hf),
    fun j hj p hp => testsNull_of_shows (hshown.joins j hj p hp)⟩, ?_⟩
  intro before left op right p hp
  exact equatesNull_tested_iff _ hp

def noteId : Argument := .column ⟨none, "notes", "id", .bigInt, .name⟩

/-- Null left and right of a column, as a value and in expressions, bound to a variable and as what
`NULL <> 0` folds to. -/
def nullCalls : List Call :=
  [.filter .and (.value .null) (.compare .eq noteId),
    .filter .and noteId (.compare .eq (.value .null)),
    .filterExpr .and (.binary .null .eq (.named "id" none)),
    .filterExpr .and (.binary (.named "id" none) .ne .null),
    .filterExpr .and (.binary (.named "id" none) .eq (.named "x" (some .null))),
    .filterExpr .and (.binary (.named "id" none) .eq (.binary .null .ne (.number "0")))]

def nullSql : String :=
  "DELETE FROM \"notes\" WHERE (? = \"id\") AND (\"id\" IS NULL) AND (NULL = \"id\") AND " ++
    "(\"id\" IS NOT NULL) AND (\"id\" = ?) AND (\"id\" = NULL)"

def nullQuery : Query := run noteAlias nullCalls

def nullScope : Scope := nullQuery.scope .sqlite false

theorem answer_nullQuery : (nullQuery.answer .delete .sqlite).map (fun s => (s.sql, s.params)) =
    .ok (nullSql, [.null, .null]) :=
  Result.eq_ok_of_toOption_eq_some (by decide)

/-- The null on the left of `id` is missed, the one on the right is not. -/
theorem null_tested_on_right_note :
    ∃ statement, nullQuery.answer .delete .sqlite = .ok statement ∧ statement.sql = nullSql ∧
      nullQuery.Conditions (fun p => ∃ f, TestsNull nullScope statement.body p f) ∧
      nullScope.EquatesNull (.compare (.value .null) .eq (.column ⟨0, 0⟩)) ∧
      ¬nullScope.EquatesNull (.compare (.column ⟨0, 0⟩) .eq (.value .null)) := by
  obtain ⟨statement, hanswer, hsql⟩ := Result.map_eq_ok_iff.mp answer_nullQuery
  obtain ⟨hconditions, htested⟩ := null_tested_on_right hanswer
  refine ⟨statement, hanswer, congrArg Prod.fst hsql, hconditions, ?_, ?_⟩
  · exact (htested nullQuery (.value .null) .eq noteId _ rfl).mpr ⟨rfl, rfl, nofun⟩
  · intro hmissed
    obtain ⟨-, hleft, -⟩ := (htested nullQuery noteId .eq (.value .null) _ rfl).mp hmissed
    cases hleft

/-- Null is written as a side of `=` where it stands left of a column, where a variable is bound to
it, and where the right side folds to it. -/
theorem null_equated_note :
    (nullQuery.answer .delete .sqlite).map (fun s => (s.sql, s.params)) =
        .ok (nullSql, [.null, .null]) ∧
      ¬nullQuery.Conditions fun p =>
        ∀ f, nullScope.conditionForm p = .ok f → ¬f.EquatesNull := by
  refine ⟨answer_nullQuery, fun hnone => ?_⟩
  have hleft : (Connective.and, Predicate.compare (.value .null) .eq (.column ⟨0, 0⟩)) ∈
      nullQuery.filters := .head _
  have hmissed : nullScope.EquatesNull (.compare (.value .null) .eq (.column ⟨0, 0⟩)) :=
    ⟨rfl, rfl, nofun⟩
  obtain ⟨f, hf⟩ : ∃ f, nullScope.conditionForm (.compare (.value .null) .eq (.column ⟨0, 0⟩)) =
    .ok f := ⟨_, rfl⟩
  exact hnone.filters _ hleft f hf ((Scope.equatesNull_iff hf).mpr hmissed)

end Query

end RecordMapper
