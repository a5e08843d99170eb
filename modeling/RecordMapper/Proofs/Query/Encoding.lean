import RecordMapper.Dialect.Products
import RecordMapper.Proofs.Host.RoundTrip
import RecordMapper.Proofs.Query.Assignment
import RecordMapper.Proofs.Query.Chain

/-!
# Literals on either side of a comparison

A literal on the right is encoded for the column on the left. One on the left is encoded by itself,
before its column is known, and converted to the storage type of the column afterwards; as the
operand of `BETWEEN` it is not even converted. The two ways agree but for members of enumerations
that are not stored by name.
-/

set_option autoImplicit false

namespace RecordMapper

namespace Operator

/-- The comparison that says the same with its sides exchanged. -/
def mirrored : Operator → Operator
  | gt => lt
  | ge => le
  | lt => gt
  | le => ge
  | op => op

/-- Whether the comparison with the value null is written as a test for it. -/
def testsNull : Operator → Bool
  | eq | ne => true
  | _ => false

@[simp] theorem testsNull_mirrored (op : Operator) : op.mirrored.testsNull = op.testsNull := by
  cases op <;> rfl

end Operator

theorem Value.convertToSql_eq_self_iff {v : Value} {type : SqlType} :
    v.convertToSql type = .ok v ↔ v.isNull = true ∨ v.type = .ofSqlType type := by
  refine ⟨type_of_convert, fun h => ?_⟩
  unfold convertToSql convert
  rw [if_pos (by simpa using h)]

/-- The member of an enumeration that a content is. -/
def FieldValue.member? : FieldValue → Option ((e : Enumeration) × e.Member)
  | member e m => some ⟨e, m⟩
  | present v => v.member?
  | _ => none

theorem FieldValue.toValue_member {v : FieldValue} {e : Enumeration} {m : e.Member}
    (h : v.member? = some ⟨e, m⟩) (cx : FieldContext) : v.toValue cx = e.encode m cx.strategy := by
  induction v with
  | member e' m' =>
    cases h
    rfl
  | present v ih => exact ih h
  | _ => cases h

/-- Other contents are encoded in the same way for all columns. -/
theorem FieldValue.toValue_eq {v : FieldValue} (h : v.member? = none) (cx cx' : FieldContext) :
    v.toValue cx = v.toValue cx' := by
  induction v with
  | member e m => cases h
  | present v ih => exact ih h
  | _ => rfl

namespace Argument
variable {v : Argument} {cx : FieldContext}

def member? : Argument → Option ((e : Enumeration) × e.Member)
  | content v _ => v.member?
  | _ => none

/-- The argument encoded by itself, and then converted to the storage type of a column. -/
def recoded (cx : FieldContext) (v : Argument) : Result Value := do
  (← v.literal none).convertToSql cx.sqlType

theorem recoded_eq_literal (h : v.member? = none ∨ cx.strategy = .name) :
    v.recoded cx = v.literal (some cx) := by
  cases v with
  | content c place =>
    have hvalue : c.toValue ⟨c.type.sqlType .name, .name⟩ = c.toValue cx := by
      rcases h with h | h
      · exact FieldValue.toValue_eq h _ _
      · cases hm : c.member? with
        | none => exact FieldValue.toValue_eq hm _ _
        | some member => rw [FieldValue.toValue_member hm, FieldValue.toValue_member hm, h]
    change (c.toValue ⟨c.type.sqlType .name, .name⟩ >>= (·.convertToSql cx.sqlType)) = _
    rw [hvalue]
    rfl
  | _ => rfl

/-- A member is recoded from its name, whatever the column stores. -/
theorem recoded_member {e : Enumeration} {m : e.Member} (h : v.member? = some ⟨e, m⟩) :
    v.recoded cx = (Value.text e.members[m].name).convertToSql cx.sqlType ∧
      v.literal (some cx) = e.encode m cx.strategy >>= (·.convertToSql cx.sqlType) := by
  cases v with
  | content c place =>
    constructor
    · change (c.toValue ⟨c.type.sqlType .name, .name⟩ >>= (·.convertToSql cx.sqlType)) = _
      rw [FieldValue.toValue_member h]
      rfl
    · change (c.toValue cx >>= (·.convertToSql cx.sqlType)) = _
      rw [FieldValue.toValue_member h]
  | _ => cases h

/-- What a literal is by itself is what its column stores, if it has the kind of the column. -/
theorem literal_eq_own_iff {w : Value} (hv : v.member? = none) (hw : v.literal none = .ok w) :
    v.literal (some cx) = .ok w ↔ w.isNull = true ∨ w.type = .ofSqlType cx.sqlType := by
  rw [← recoded_eq_literal (.inl hv), recoded, hw]
  exact Value.convertToSql_eq_self_iff

end Argument

namespace Query
variable {q : Query} {s : Scope} {c v : Argument} {p : ColumnPosition} {col : Column}

/-- The parameters that a condition binds where it is written. -/
def bound (q : Query) (s : Scope) (left : Argument) (test : Test) : Result (List Value) := do
  let p ← (do q.predicate (← q.operand left none) test)
  return (← s.predicate p).params

theorem operand_column (hc : q.resolve c = .ok (some p)) (cx : Option FieldContext) :
    q.operand c cx = .ok (.column p) := by
  rw [operand, hc]
  rfl

theorem operand_literal (hv : q.resolve v = .ok none) (cx : Option FieldContext) :
    q.operand v cx = (v.literal cx).map .value := by
  rw [operand, hv]
  cases v.literal cx <;> rfl

theorem predicate_literal_left (hc : q.resolve c = .ok (some p)) (hcol : q.columnAt? p = some col)
    (op : Operator) (w : Value) :
    q.predicate (.value w) (.compare op c) =
      (w.convertToSql col.sqlType).map fun w => .compare (.value w) op (.column p) := by
  have hcoerce : q.coerce (.value w) (.column p) = (w.convertToSql col.sqlType).map .value := by
    rw [coerce, hcol]
  rw [predicate, operand_column hc]
  change (q.coerce (.value w) (.column p) >>= fun left => _) = _
  rw [hcoerce]
  cases w.convertToSql col.sqlType <;> rfl

/-- The operand of `BETWEEN` is bound as it is by itself. -/
theorem bound_between {high : Argument} {p' : ColumnPosition} (hc : q.resolve c = .ok (some p))
    (hhigh : q.resolve high = .ok (some p')) (hv : q.resolve v = .ok none) :
    q.bound s v (.between c high) = (v.literal none).map ([·]) := by
  rw [bound, operand_literal hv]
  cases v.literal none with
  | error e => rfl
  | ok w =>
    change (q.predicate (.value w) (.between c high) >>= _) = _
    rw [predicate, operand_column hc, operand_column hhigh]
    rfl

section Compared
variable (hc : q.resolve c = .ok (some p)) (hcol : q.columnAt? p = some col)
  (hv : q.resolve v = .ok none)
include hc hcol hv

theorem bound_literal_left (op : Operator) :
    q.bound s v (.compare op c) = (v.recoded col.context).map ([·]) := by
  rw [bound, operand_literal hv, Argument.recoded]
  cases v.literal none with
  | error e => rfl
  | ok w =>
    change (q.predicate (.value w) (.compare op c) >>= _) = _
    rw [predicate_literal_left hc hcol]
    change _ = (w.convertToSql col.sqlType).map _
    cases w.convertToSql col.sqlType with
    | error e => rfl
    | ok w => cases op <;> rfl

theorem bound_literal_right (op : Operator) :
    q.bound s c (.compare op v) =
      (v.literal (some col.context)).map fun w => if op.testsNull && w.isNull then [] else [w] := by
  have hcontext : q.context? (.column p) = some col.context := by
    rw [context?, hcol]
    rfl
  rw [bound, operand_column hc]
  change (q.predicate (.column p) (.compare op v) >>= _) = _
  rw [predicate, hcontext, operand_literal hv]
  cases v.literal (some col.context) with
  | error e => rfl
  | ok w => cases op <;> cases w <;> rfl

theorem bound_alike_iff (op : Operator) :
    (q.bound s v (.compare op c)).toOption = (q.bound s c (.compare op.mirrored v)).toOption ↔
      (v.recoded col.context).toOption = (v.literal (some col.context)).toOption ∧
        (op.testsNull = true → v.literal (some col.context) ≠ .ok .null) := by
  rw [bound_literal_left hc hcol hv, bound_literal_right hc hcol hv, Operator.testsNull_mirrored]
  cases v.recoded col.context with
  | error e =>
    cases v.literal (some col.context) with
    | error e' => simp [Except.map, Except.toOption]
    | ok w => simp [Except.map, Except.toOption]
  | ok w =>
    cases v.literal (some col.context) with
    | error e' => simp [Except.map, Except.toOption]
    | ok w' =>
      by_cases hnull : op.testsNull = true ∧ w' = .null
      · simp [Except.map, Except.toOption, hnull.1, hnull.2, Value.isNull]
      · have hwritten : (op.testsNull && w'.isNull) = false := by
          rw [Bool.eq_false_iff, ne_eq, Bool.and_eq_true, Value.isNull_iff]
          exact hnull
        have hwanted : op.testsNull = true → w' ≠ .null := fun htests hw => hnull ⟨htests, hw⟩
        simpa [Except.map, Except.toOption, hwritten] using fun _ => hwanted

end Compared

/-- A literal binds the same on either side of a comparison exactly if it is recoded as it is
encoded for the column, and a null is not tested for. Only members of enumerations that are not
stored by name are recoded otherwise. The operand of `BETWEEN` is bound without regard to the
column, so any that is not null binds a value of its own kind. -/
theorem bound_mirrored_iff (hc : q.resolve c = .ok (some p)) (hcol : q.columnAt? p = some col)
    (hv : ∀ p', q.resolve v ≠ .ok (some p')) (s : Scope) :
    (∀ op : Operator,
      (q.bound s v (.compare op c)).toOption = (q.bound s c (.compare op.mirrored v)).toOption ↔
        (q.resolve v = .ok none →
          (v.recoded col.context).toOption = (v.literal (some col.context)).toOption ∧
            (op.testsNull = true → v.literal (some col.context) ≠ .ok .null))) ∧
      (v.member? = none ∨ col.strategy = .name →
        v.recoded col.context = v.literal (some col.context)) ∧
      (∀ e m, v.member? = some ⟨e, m⟩ →
        v.recoded col.context = (Value.text e.members[m].name).convertToSql col.sqlType ∧
          v.literal (some col.context) =
            e.encode m col.strategy >>= (·.convertToSql col.sqlType)) ∧
      ∀ high p', q.resolve high = .ok (some p') → q.resolve v = .ok none →
        q.bound s v (.between c high) = (v.literal none).map ([·]) ∧
          ∀ w, v.member? = none → v.literal none = .ok w →
            (v.literal (some col.context) = .ok w ↔
              w.isNull = true ∨ w.type = .ofSqlType col.sqlType) := by
  refine ⟨fun op => ?_, fun h => Argument.recoded_eq_literal h,
    fun e m h => Argument.recoded_member h, fun high p' hhigh hplain => ?_⟩
  · cases hresolved : q.resolve v with
    | error e =>
      have hleft : q.bound s v (.compare op c) = .error e := by
        rw [bound, operand, hresolved]
        rfl
      have hright : q.bound s c (.compare op.mirrored v) = .error e := by
        rw [bound, operand_column hc]
        change (q.predicate (.column p) (.compare op.mirrored v) >>= _) = _
        rw [predicate, operand, hresolved]
        rfl
      rw [hleft, hright]
      exact iff_of_true rfl nofun
    | ok found =>
      cases found with
      | some p' => exact absurd hresolved (hv p')
      | none =>
        rw [bound_alike_iff hc hcol hresolved]
        exact ⟨fun h _ => h, fun h => h rfl⟩
  · exact ⟨bound_between hc hhigh hplain, fun w hm hw => Argument.literal_eq_own_iff hm hw⟩

def plans : Enumeration where
  name := "Plan"
  members := [⟨"Free", some (.text "F")⟩, ⟨"Paid", some (.text "P")⟩]

def accountId : FieldMapping where
  column :=
    { name := "id", fieldName := "id", sqlType := .bigInt, primaryKey := true, isByValue := true }
  slot := ["id"]
  type := .scalar .int64

def accountPlan : FieldMapping where
  column := { name := "plan", fieldName := "plan", sqlType := .varchar, strategy := .customId }
  slot := ["plan"]
  type := .enumeration plans

def accountModel : Model where
  id := 0
  typeName := "accounts"
  initial := ⟨[(["id"], .scalar (.int64 0)), (["plan"], .member plans ⟨0, by decide⟩)]⟩
  description :=
    .setting (.field
      { fieldName := "id", slot := ["id"], type := .scalar .int64, primaryKey := true }) <|
    .setting (.field
      { fieldName := "plan", slot := ["plan"], type := .enumeration plans, strategy := .customId })
      .done

def accountAlias : Alias where
  id := 1
  model := accountModel
  mapping :=
    { table :=
        { name := "accounts", columns := [accountId.column, accountPlan.column],
          primaryKey := ["id"] }
      fields := [accountId, accountPlan] }
  record := ⟨[(["id"], .scalar (.int64 3)), (["plan"], .member plans ⟨0, by decide⟩)]⟩
  registry :=
    { current := [(.int 3, 0), (.identity (.field 1 ["plan"]), 1)]
      generation := 1 }

example : (Program.run [.create accountModel]).aliases = [(accountAlias, true)] := rfl

def accountQuery : Query where
  source := accountAlias

def accountScope : Scope := accountQuery.scope .sqlite true

/-- A text stands for a number of its column on either side. -/
theorem bound_mirrored_id :
    accountQuery.resolve (accountAlias.reference ["id"]) = .ok (some ⟨0, 0⟩) ∧
      accountQuery.columnAt? ⟨0, 0⟩ = some accountId.column ∧
      accountQuery.resolve (.text "7") = .ok none ∧
      (accountQuery.bound accountScope (.text "7")
          (.compare .gt (accountAlias.reference ["id"]))).toOption =
        (accountQuery.bound accountScope (accountAlias.reference ["id"])
          (.compare .lt (.text "7"))).toOption := by
  have hplain : accountQuery.resolve (.text "7") = .ok none := rfl
  obtain ⟨hmirrored, hrecoded, -⟩ :=
    bound_mirrored_iff (q := accountQuery) (c := accountAlias.reference ["id"]) (v := .text "7")
      (p := ⟨0, 0⟩) rfl rfl nofun accountScope
  refine ⟨rfl, rfl, hplain, (hmirrored .gt).mpr fun _ => ⟨?_, nofun⟩⟩
  rw [hrecoded (.inl rfl)]

/-- A plan left of its column is bound by its name, right of it by its identifier; and a text
between two numbers stays a text. -/
theorem bound_plan_ne_mirrored :
    accountQuery.resolve (accountAlias.reference ["plan"]) = .ok (some ⟨0, 1⟩) ∧
      accountQuery.columnAt? ⟨0, 1⟩ = some accountPlan.column ∧
      accountQuery.resolve (.content (.member plans ⟨0, by decide⟩) .elsewhere) = .ok none ∧
      accountQuery.bound accountScope (.content (.member plans ⟨0, by decide⟩) .elsewhere)
          (.compare .eq (accountAlias.reference ["plan"])) = .ok [.text "Free"] ∧
      accountQuery.bound accountScope (accountAlias.reference ["plan"])
          (.compare .eq (.content (.member plans ⟨0, by decide⟩) .elsewhere)) = .ok [.text "F"] ∧
      accountQuery.bound accountScope (.text "5")
          (.between (accountAlias.reference ["id"]) (accountAlias.reference ["id"])) =
        .ok [.text "5"] ∧
      (Argument.text "5").literal (some accountId.column.context) = .ok (.int64 5) :=
  ⟨rfl, rfl, rfl, rfl, rfl, rfl, by decide⟩

end Query

end RecordMapper
