import Mathlib.Data.List.Forall2
import RecordMapper.Dialect.Products
import RecordMapper.Proofs.Dialect.Outline
import RecordMapper.Proofs.Query.Masked

/-!
# Values never influence the text

Two runs of a chain of calls are compared that differ only in the literals: in texts and values that
are handed over, and in the values that names in expressions are bound to. Literals may differ in
everything but in being null. If both chains succeed, their queries are the same once they are
masked, and so their statements have the same text.
-/

set_option autoImplicit false

namespace RecordMapper

theorem Value.isNull_convert {v w : Value} {target : ValueType} (h : v.convert target = .ok w) :
    w.isNull = v.isNull := by
  unfold convert at h
  split at h
  · obtain rfl := Except.ok.inj h
    rfl
  · next hnull =>
    have hv : v.isNull = false := by
      rw [Bool.eq_false_iff]
      intro hv
      exact hnull (by rw [hv, Bool.true_or])
    have hmap {α : Type} {result : Result α} {make : α → Value}
        (hmake : ∀ a, (make a).isNull = false) (h : result.map make = .ok w) : w.isNull = v.isNull := by
      cases result with
      | error e => cases h
      | ok a =>
        obtain rfl := Except.ok.inj h
        rw [hmake a, hv]
    split at h
    · cases h
    all_goals exact hmap (fun _ => rfl) h

theorem Value.masked_convertToSql {v w : Value} {type : SqlType} (h : v.convertToSql type = .ok w) :
    w.masked = v.masked :=
  masked_eq_iff.mpr (isNull_convert h)

def Argument.literal? : Argument → Option Value
  | .text s => some (.text s)
  | .value v => some v
  | _ => none

/-- The arguments are the same or literals of which both are null or neither is. -/
inductive Argument.Alike : Argument → Argument → Prop
  | same (arg : Argument) : Alike arg arg
  | literals {arg arg' : Argument} {v v' : Value} : arg.literal? = some v →
    arg'.literal? = some v' → v.isNull = v'.isNull → Alike arg arg'

/-- Patterns are texts, and so never null. -/
inductive Test.Alike : Test → Test → Prop
  | compare (op : Operator) {right right' : Argument} : right.Alike right' →
    Alike (.compare op right) (.compare op right')
  | like (pattern pattern' : String) : Alike (.like pattern) (.like pattern')
  | between {low low' high high' : Argument} : low.Alike low' → high.Alike high' →
    Alike (.between low high) (.between low' high')
  | isNull (negated : Bool) : Alike (.isNull negated) (.isNull negated)

inductive Call.Alike : Call → Call → Prop
  | filter (c : Connective) {left left' : Argument} {test test' : Test} : left.Alike left' →
    test.Alike test' → Alike (.filter c left test) (.filter c left' test')
  | filterExpr (c : Connective) {e e' : Expr} : e.masked = e'.masked →
    Alike (.filterExpr c e) (.filterExpr c e')
  | join (kind : JoinKind) (source : Alias) {left left' : Argument} {test test' : Test} :
    left.Alike left' → test.Alike test' →
    Alike (.join kind source left test) (.join kind source left' test')
  | groupBy {field field' : Argument} : field.Alike field' →
    Alike (.groupBy field) (.groupBy field')
  | orderBy {field field' : Argument} (descending : Bool) : field.Alike field' →
    Alike (.orderBy field descending) (.orderBy field' descending)
  | distinct : Alike .distinct .distinct
  | limitTo (n : Nat) : Alike (.limitTo n) (.limitTo n)
  | startAt (n : Nat) : Alike (.startAt n) (.startAt n)
  | set {field field' value value' : Argument} : field.Alike field' → value.Alike value' →
    Alike (.set field value) (.set field' value')

inductive Request.Alike : Request → Request → Prop
  | same (request : Request) : Alike request request
  | rows {columns columns' : List Argument} : List.Forall₂ Argument.Alike columns columns' →
    Alike (.rows columns) (.rows columns')

namespace Argument.Alike
variable {arg arg' : Argument}

theorem keys_of_literal {v : Value} (h : arg.literal? = some v) :
    arg.key? = none ∧ arg.columnRef? = none := by
  cases arg with
  | content c place => cases h
  | text s => exact ⟨rfl, rfl⟩
  | value v => exact ⟨rfl, rfl⟩
  | column c => cases h

theorem keys (h : arg.Alike arg') : arg.key? = arg'.key? ∧ arg.columnRef? = arg'.columnRef? := by
  cases h with
  | same => exact ⟨rfl, rfl⟩
  | literals hv hv' _ =>
    obtain ⟨hkey, href⟩ := keys_of_literal hv
    obtain ⟨hkey', href'⟩ := keys_of_literal hv'
    exact ⟨hkey.trans hkey'.symm, href.trans href'.symm⟩

theorem masked_of_literal {v w : Value} {cx : Option FieldContext} (h : arg.literal? = some v)
    (hw : arg.literal cx = .ok w) : w.masked = v.masked := by
  have hencode {v : Value} (hw : Argument.literal.encode cx v = .ok w) : w.masked = v.masked := by
    cases cx with
    | none =>
      obtain rfl := Except.ok.inj hw
      rfl
    | some cx => exact Value.masked_convertToSql hw
  cases arg with
  | content c place => cases h
  | text s =>
    obtain rfl := Option.some.inj h
    exact hencode hw
  | value v =>
    obtain rfl := Option.some.inj h
    exact hencode hw
  | column c => cases h

theorem masked (h : arg.Alike arg') {v v' : Value} {cx : Option FieldContext}
    (hv : arg.literal cx = .ok v) (hv' : arg'.literal cx = .ok v') : v.masked = v'.masked := by
  cases h with
  | same =>
    rw [hv] at hv'
    rw [Except.ok.inj hv']
  | literals hw hw' hnull =>
    rw [masked_of_literal hw hv, masked_of_literal hw' hv', Value.masked_eq_iff.mpr hnull]

end Argument.Alike

namespace Query

section Runs
variable {q q' : Query} (h : q.masked = q'.masked)
include h

theorem sources_congr : q.sources = q'.sources := by
  rw [← sources_masked, h, sources_masked]

theorem tables_congr : q.tables = q'.tables := by
  rw [← tables_masked, h, tables_masked]

theorem resolve_congr {arg arg' : Argument} (ha : arg.Alike arg') :
    q.resolve arg = q'.resolve arg' := by
  obtain ⟨hkey, href⟩ := ha.keys
  rw [resolve, resolve, lookups, lookups, sources_congr h, hkey, href]

theorem column_congr {arg arg' : Argument} (ha : arg.Alike arg') :
    q.column arg = q'.column arg' := by
  have hsource : q.source = q'.source := (Query.mk.inj h).1
  rw [column, column, resolve_congr h ha, hsource]

theorem context_congr {o o' : Operand} (ho : o.masked = o'.masked) :
    q.context? o = q'.context? o' := by
  cases o with
  | column p =>
    cases o' with
    | column p' =>
      obtain rfl := Operand.column.inj ho
      rw [context?, context?, columnAt?, columnAt?, tables_congr h]
    | value v' => cases ho
  | value v =>
    cases o' with
    | column p' => cases ho
    | value v' => rfl

theorem masked_operand {arg arg' : Argument} (ha : arg.Alike arg') {cx : Option FieldContext}
    {o o' : Operand} (ho : q.operand arg cx = .ok o) (ho' : q'.operand arg' cx = .ok o') :
    o.masked = o'.masked := by
  obtain ⟨found, hfound, ho⟩ := Result.bind_eq_ok_iff.mp ho
  obtain ⟨found', hfound', ho'⟩ := Result.bind_eq_ok_iff.mp ho'
  rw [resolve_congr h ha, hfound'] at hfound
  obtain rfl := Except.ok.inj hfound
  cases found' with
  | some p =>
    obtain rfl := Except.ok.inj ho
    obtain rfl := Except.ok.inj ho'
    rfl
  | none =>
    obtain ⟨v, hv, ho⟩ := Result.bind_eq_ok_iff.mp ho
    obtain ⟨v', hv', ho'⟩ := Result.bind_eq_ok_iff.mp ho'
    obtain rfl := Except.ok.inj ho
    obtain rfl := Except.ok.inj ho'
    exact congrArg Operand.value (ha.masked hv hv')

omit h in
theorem masked_coerce {left right coerced : Operand} (hc : q.coerce left right = .ok coerced) :
    coerced.masked = left.masked := by
  unfold coerce at hc
  split at hc
  · split at hc
    · next v _ _ c _ =>
      cases hconvert : v.convertToSql c.sqlType with
      | error e =>
        rw [hconvert] at hc
        cases hc
      | ok w =>
        rw [hconvert] at hc
        obtain rfl := Except.ok.inj hc
        exact congrArg Operand.value (Value.masked_convertToSql hconvert)
    · obtain rfl := Except.ok.inj hc
      rfl
  · obtain rfl := Except.ok.inj hc
    rfl

theorem masked_predicate {left left' : Operand} (hleft : left.masked = left'.masked)
    {test test' : Test} (ht : test.Alike test') {p p' : Predicate}
    (hp : q.predicate left test = .ok p) (hp' : q'.predicate left' test' = .ok p') :
    p.masked = p'.masked := by
  cases ht with
  | compare op hr =>
    obtain ⟨right, hright, hp⟩ := Result.bind_eq_ok_iff.mp hp
    obtain ⟨right', hright', hp'⟩ := Result.bind_eq_ok_iff.mp hp'
    obtain ⟨coerced, hcoerced, hp⟩ := Result.bind_eq_ok_iff.mp hp
    obtain ⟨coerced', hcoerced', hp'⟩ := Result.bind_eq_ok_iff.mp hp'
    obtain rfl := Except.ok.inj hp
    obtain rfl := Except.ok.inj hp'
    rw [context_congr h hleft] at hright
    have hmasked := masked_operand h hr hright hright'
    rw [Predicate.masked, Predicate.masked, masked_coerce hcoerced, masked_coerce hcoerced', hleft,
      hmasked]
  | like pattern pattern' =>
    obtain rfl := Except.ok.inj hp
    obtain rfl := Except.ok.inj hp'
    rw [Predicate.masked, Predicate.masked, hleft]
  | between hlow hhigh =>
    obtain ⟨low, hl, hp⟩ := Result.bind_eq_ok_iff.mp hp
    obtain ⟨low', hl', hp'⟩ := Result.bind_eq_ok_iff.mp hp'
    obtain ⟨high, hh, hp⟩ := Result.bind_eq_ok_iff.mp hp
    obtain ⟨high', hh', hp'⟩ := Result.bind_eq_ok_iff.mp hp'
    obtain rfl := Except.ok.inj hp
    obtain rfl := Except.ok.inj hp'
    rw [context_congr h hleft] at hl hh
    rw [Predicate.masked, Predicate.masked, hleft, masked_operand h hlow hl hl',
      masked_operand h hhigh hh hh']
  | isNull negated =>
    obtain rfl := Except.ok.inj hp
    obtain rfl := Except.ok.inj hp'
    rw [Predicate.masked, Predicate.masked, hleft]

end Runs

/-- A query without a remembered error has made everything it was asked to make. -/
theorem made_of_error_eq_none {α : Type} {q : Query} {made : Result α}
    {change : Query → α → Query} (h : (q.call made change).error = none) :
    ∃ a, made = .ok a ∧ q.call made change = change q a := by
  cases made with
  | ok a => exact ⟨a, rfl, rfl⟩
  | error e =>
    have herror := error_fail q e
    rw [call] at h
    rw [h] at herror
    cases herror

theorem masked_addOn (q : Query) (p : Predicate) :
    (q.addOn p).masked = q.masked.addOn p.masked := by
  unfold addOn
  have hlast : q.masked.joins.getLast? = q.joins.getLast?.map Join.masked := List.getLast?_map
  rw [hlast]
  cases q.joins.getLast? with
  | none => rfl
  | some last =>
    simp only [masked, Option.map_some, List.map_append, List.map_dropLast, List.map_cons,
      List.map_nil, Join.masked]

theorem masked_push (q : Query) (target : Target) (p : Predicate) :
    (q.push target p).masked = q.masked.push target p.masked := by
  cases target with
  | filter c => simp only [push, masked, List.map_append, List.map_cons, List.map_nil]
  | on => exact masked_addOn q p

section Runs
variable {q q' : Query} (h : q.masked = q'.masked)
include h

theorem masked_condition (target : Target) {left left' : Argument} (hl : left.Alike left')
    {test test' : Test} (ht : test.Alike test')
    (herror : (q.condition target left test).error = none)
    (herror' : (q'.condition target left' test').error = none) :
    (q.condition target left test).masked = (q'.condition target left' test').masked := by
  unfold condition at herror herror' ⊢
  obtain ⟨p, hp, hmade⟩ := made_of_error_eq_none herror
  obtain ⟨p', hp', hmade'⟩ := made_of_error_eq_none herror'
  obtain ⟨o, ho, hp⟩ := Result.bind_eq_ok_iff.mp hp
  obtain ⟨o', ho', hp'⟩ := Result.bind_eq_ok_iff.mp hp'
  have hmasked := masked_predicate h (masked_operand h hl ho ho') ht hp hp'
  rw [hmade, hmade', masked_push, masked_push, h, hmasked]

theorem masked_join (kind : JoinKind) (source : Alias) {left left' : Argument}
    (hl : left.Alike left') {test test' : Test} (ht : test.Alike test')
    (herror : (q.join kind source left test).error = none)
    (herror' : (q'.join kind source left' test').error = none) :
    (q.join kind source left test).masked = (q'.join kind source left' test').masked := by
  have happend (q : Query) : masked { q with joins := q.joins ++ [{ kind, source }] } =
      { q.masked with joins := q.masked.joins ++ [{ kind, source }] } := by
    simp only [masked, List.map_append]
    rfl
  have hjoined : masked { q with joins := q.joins ++ [{ kind, source }] } =
      masked { q' with joins := q'.joins ++ [{ kind, source }] } := by
    rw [happend, happend, h]
  exact masked_condition hjoined .on hl ht herror herror'

/-- A call that writes down the column of its field writes down the same column in both runs. -/
theorem masked_call_column {field field' : Argument} (hf : field.Alike field')
    {change : Query → ColumnPosition → Query}
    (hchange : ∀ q p, (change q p).masked = change q.masked p)
    (herror : (q.call (q.column field) change).error = none)
    (herror' : (q'.call (q'.column field') change).error = none) :
    (q.call (q.column field) change).masked = (q'.call (q'.column field') change).masked := by
  obtain ⟨p, hp, hmade⟩ := made_of_error_eq_none herror
  obtain ⟨p', hp', hmade'⟩ := made_of_error_eq_none herror'
  rw [column_congr h hf, hp'] at hp
  obtain rfl := Except.ok.inj hp
  rw [hmade, hmade', hchange, hchange, h]

theorem masked_set {field field' value value' : Argument} (hf : field.Alike field')
    (hv : value.Alike value') (herror : (q.set field value).error = none)
    (herror' : (q'.set field' value').error = none) :
    (q.set field value).masked = (q'.set field' value').masked := by
  obtain ⟨⟨p, v⟩, hp, hmade⟩ := made_of_error_eq_none herror
  obtain ⟨⟨p', v'⟩, hp', hmade'⟩ := made_of_error_eq_none herror'
  obtain ⟨column, hcolumn, hp⟩ := Result.bind_eq_ok_iff.mp hp
  obtain ⟨column', hcolumn', hp'⟩ := Result.bind_eq_ok_iff.mp hp'
  obtain ⟨w, hw, hp⟩ := Result.bind_eq_ok_iff.mp hp
  obtain ⟨w', hw', hp'⟩ := Result.bind_eq_ok_iff.mp hp'
  obtain ⟨rfl, rfl⟩ := Prod.mk.inj (Except.ok.inj hp)
  obtain ⟨rfl, rfl⟩ := Prod.mk.inj (Except.ok.inj hp')
  rw [column_congr h hf, hcolumn'] at hcolumn
  obtain rfl := Except.ok.inj hcolumn
  have hcontext : q.context? (.column column') = q'.context? (.column column') :=
    context_congr h rfl
  rw [hcontext] at hw
  have hmasked := hv.masked hw hw'
  have hassigned (q : Query) (v : Value) :
      masked { q with assignments := q.assignments ++ [(column', v)] } =
        { q.masked with assignments := q.masked.assignments ++ [(column', v.masked)] } := by
    simp only [masked, List.map_append]
    rfl
  rw [set, set, hmade, hmade', hassigned, hassigned, h, hmasked]

theorem masked_apply {c c' : Call} (hc : c.Alike c') (herror : (q.apply c).error = none)
    (herror' : (q'.apply c').error = none) : (q.apply c).masked = (q'.apply c').masked := by
  cases hc with
  | filter c hl ht => exact masked_condition h (.filter c) hl ht herror herror'
  | filterExpr c he =>
    change (q.push (.filter c) (.expr _)).masked = (q'.push (.filter c) (.expr _)).masked
    rw [masked_push, masked_push, h, Predicate.masked, Predicate.masked, he]
  | join kind source hl ht => exact masked_join h kind source hl ht herror herror'
  | groupBy hf => exact masked_call_column h hf (fun _ _ => rfl) herror herror'
  | orderBy descending hf => exact masked_call_column h hf (fun _ _ => rfl) herror herror'
  | distinct =>
    have hdistinct (q : Query) : q.distinct.masked = q.masked.distinct := rfl
    exact (hdistinct q).trans (h ▸ (hdistinct q').symm)
  | limitTo n =>
    have hlimit (q : Query) : (q.limitTo n).masked = q.masked.limitTo n := rfl
    exact (hlimit q).trans (h ▸ (hlimit q').symm)
  | startAt n =>
    have hstart (q : Query) : (q.startAt n).masked = q.masked.startAt n := rfl
    exact (hstart q).trans (h ▸ (hstart q').symm)
  | set hf hv => exact masked_set h hf hv herror herror'

end Runs

theorem error_call {α : Type} {q : Query} {made : Result α} {change : Query → α → Query}
    (hchange : ∀ a, (change q a).error = none → q.error = none)
    (h : (q.call made change).error = none) : q.error = none := by
  obtain ⟨a, -, hmade⟩ := made_of_error_eq_none h
  rw [hmade] at h
  exact hchange a h

theorem error_push {q : Query} {target : Target} {p : Predicate}
    (h : (q.push target p).error = none) : q.error = none := by
  cases target with
  | filter c => exact h
  | on =>
    change (q.addOn p).error = none at h
    unfold addOn at h
    split at h
    · exact h
    · rw [error_fail] at h
      cases h

theorem error_condition {q : Query} {target : Target} {left : Argument} {test : Test}
    (h : (q.condition target left test).error = none) : q.error = none :=
  error_call (fun _ => error_push) h

theorem error_of_apply {q : Query} {c : Call} (h : (q.apply c).error = none) : q.error = none := by
  cases c with
  | filter c left test => exact error_condition h
  | filterExpr c e => exact h
  | join kind source left test => exact (error_condition h : _)
  | groupBy field => exact error_call (fun _ => id) h
  | orderBy field descending => exact error_call (fun _ => id) h
  | distinct => exact h
  | limitTo n => exact h
  | startAt n => exact h
  | set field value => exact error_call (fun _ => id) h

theorem error_of_foldl {calls : List Call} {q : Query}
    (h : (calls.foldl apply q).error = none) : q.error = none := by
  induction calls generalizing q with
  | nil => exact h
  | cons c rest ih => exact error_of_apply (ih h)

theorem masked_foldl {calls calls' : List Call} (hcalls : List.Forall₂ Call.Alike calls calls')
    {q q' : Query} (h : q.masked = q'.masked) (herror : (calls.foldl apply q).error = none)
    (herror' : (calls'.foldl apply q').error = none) :
    (calls.foldl apply q).masked = (calls'.foldl apply q').masked := by
  induction hcalls generalizing q q' with
  | nil => exact h
  | cons hc _ ih =>
    exact ih (masked_apply h hc (error_of_foldl herror) (error_of_foldl herror')) herror herror'

/-- Two chains of alike calls make the same query, once it is masked, if both succeed. -/
theorem masked_run {source : Alias} {calls calls' : List Call}
    (hcalls : List.Forall₂ Call.Alike calls calls') (herror : (run source calls).error = none)
    (herror' : (run source calls').error = none) :
    (run source calls).masked = (run source calls').masked :=
  masked_foldl hcalls rfl herror herror'

section Runs
variable {q q' : Query} {d : Dialect} (h : q.masked = q'.masked)
include h

theorem outlined_writeSelect (projection : Projection) :
    (q.writeSelect projection d).map Statement.outline =
      (q'.writeSelect projection d).map Statement.outline := by
  rw [← outlined_writeSelect_masked q, h, outlined_writeSelect_masked]

theorem mapM_column_congr {columns columns' : List Argument}
    (hcolumns : List.Forall₂ Argument.Alike columns columns') :
    columns.mapM q.column = columns'.mapM q'.column := by
  induction hcolumns with
  | nil => rfl
  | cons hc _ ih => rw [List.mapM_cons, List.mapM_cons, column_congr h hc, ih]

theorem outlined_write {request request' : Request} (hr : request.Alike request') :
    (q.write d request).map Statement.outline = (q'.write d request').map Statement.outline := by
  have hrows {columns columns' : List Argument}
      (hcolumns : List.Forall₂ Argument.Alike columns columns') :
      (q.write d (.rows columns)).map Statement.outline =
        (q'.write d (.rows columns')).map Statement.outline := by
    rw [write, write, mapM_column_congr h hcolumns]
    refine Result.map_bind_congr (g := id) rfl ?_
    rintro ps _ rfl
    exact outlined_writeSelect h (.columns ps)
  cases hr with
  | rows hcolumns => exact hrows hcolumns
  | same =>
    cases request with
    | rows columns => exact hrows (List.forall₂_same.mpr fun c _ => .same c)
    | select => exact outlined_writeSelect h .record
    | first =>
      have hlimited (q : Query) : masked { q with limit := q.limit.or (some 1) } =
          { q.masked with limit := q.masked.limit.or (some 1) } := rfl
      exact outlined_writeSelect (by rw [hlimited, hlimited, h]) .record
    | count => exact outlined_writeSelect h .count
    | update =>
      rw [write, write, ← outlined_writeUpdate_masked q, h, outlined_writeUpdate_masked]
    | delete =>
      rw [write, write, ← outlined_writeDelete_masked q, h, outlined_writeDelete_masked]

end Runs

/-- Alike requests of two alike chains are answered with the same outline, if both are answered. -/
theorem outline_answer {source : Alias} {calls calls' : List Call} {request request' : Request}
    {d : Dialect} {s s' : Statement} (hcalls : List.Forall₂ Call.Alike calls calls')
    (hr : request.Alike request') (hs : (run source calls).answer request d = .ok s)
    (hs' : (run source calls').answer request' d = .ok s') : s.outline = s'.outline := by
  obtain ⟨herror, hs⟩ := write_of_answer hs
  obtain ⟨herror', hs'⟩ := write_of_answer hs'
  have hwritten := outlined_write (d := d) (masked_run hcalls herror herror') hr
  rw [hs, hs'] at hwritten
  exact Except.ok.inj hwritten

end Query

/-- In every dialect, rows that leave the same columns to the database give statements with the same
text, and so do chains of calls that differ only in literals that are null in both or in neither. -/
theorem Dialect.sql_independent_of_values (d : Dialect) :
    (∀ (t : Table) (values values' : List Value), t.RowsAlike values values' →
      (d.insert t values).map Statement.sql = (d.insert t values').map Statement.sql ∧
      (d.update t values).map Statement.sql = (d.update t values').map Statement.sql ∧
      (d.delete t values).map Statement.sql = (d.delete t values').map Statement.sql ∧
      (d.merge t values).map (List.map Statement.sql) =
        (d.merge t values').map (List.map Statement.sql)) ∧
    ∀ (source : Alias) (calls calls' : List Call) (request request' : Request) (s s' : Statement),
      List.Forall₂ Call.Alike calls calls' → request.Alike request' →
      (Query.run source calls).answer request d = .ok s →
      (Query.run source calls').answer request' d = .ok s' →
      s.sql = s'.sql ∧ s.params.length = s'.params.length := by
  constructor
  · intro t values values' h
    have hsql {x x' : Result Statement} (h : x.outline = x'.outline) :
        x.map Statement.sql = x'.map Statement.sql :=
      Result.map_congr_of_factor Statement.sql Statement.sql_outline h
    refine ⟨hsql (outline_insert_congr h), hsql (outline_update_congr h),
      hsql (outline_delete_congr h), ?_⟩
    refine Result.map_congr_of_factor (List.map Statement.sql) ?_ (outline_merge_congr h)
    intro statements
    rw [List.map_map]
    exact List.map_congr_left fun s _ => s.sql_outline
  · intro source calls calls' request request' s s' hcalls hr hs hs'
    have houtline := Query.outline_answer hcalls hr hs hs'
    constructor
    · rw [← s.sql_outline, houtline, s'.sql_outline]
    · rw [← s.length_params_outline, houtline, s'.length_params_outline]

namespace Query

def noteTable : Table where
  name := "notes"
  columns :=
    [{ name := "id", fieldName := "id", sqlType := .bigInt, primaryKey := true,
       autoIncrement := true },
      { name := "body", fieldName := "body", sqlType := .varchar }]
  primaryKey := ["id"]

def noteAlias : Alias where
  id := 0
  model := { id := 0, typeName := "Note", initial := {}, description := .done }
  mapping := ⟨noteTable, []⟩
  record := {}

/-- A text as a literal of a filter and bound to the variable of an expression. -/
def noteCalls (body : String) : List Call :=
  [.filter .and (.column ⟨none, "notes", "body", .varchar, .name⟩) (.compare .eq (.text body)),
    .filterExpr .and (.binary (.named "body" none) .gt (.named "bound" (some (.text body))))]

def noteStatement (body : String) : Statement where
  body := Sql.text "SELECT " ++ Sql.text "T1.\"id\"" ++ Sql.text ", " ++ Sql.text "T1.\"body\"" ++
    Sql.text " FROM \"notes\" T1" ++ Sql.text " WHERE " ++ Sql.text "(" ++ Sql.text "T1.\"body\"" ++
    Sql.text " = " ++ Sql.param (.text body) ++ Sql.text ")" ++ Sql.text " AND " ++ Sql.text "(" ++
    Sql.text "T1.\"body\"" ++ Sql.text " > " ++ Sql.param (.text body) ++ Sql.text ")"

theorem sql_independent_of_note :
    (Dialect.sqlite.insert noteTable [.null, .text "milk"]).map Statement.sql =
        (Dialect.sqlite.insert noteTable [.int64 0, .text "'); --"]).map Statement.sql ∧
      (noteStatement "milk").sql = (noteStatement "' OR 1 = 1").sql ∧
      (noteStatement "milk").params.length = (noteStatement "' OR 1 = 1").params.length := by
  have hrows : noteTable.RowsAlike [.null, .text "milk"] [.int64 0, .text "'); --"] := by
    refine ⟨rfl, ?_⟩
    intro i c v v' hc hv hv'
    match i with
    | 0 | 1 =>
      obtain rfl := Option.some.inj hc
      obtain rfl := Option.some.inj hv
      obtain rfl := Option.some.inj hv'
      rfl
    | i + 2 => cases hc
  have hcalls : List.Forall₂ Call.Alike (noteCalls "milk") (noteCalls "' OR 1 = 1") :=
    .cons (.filter .and (.same _) (.compare .eq (.literals rfl rfl rfl)))
      (.cons (.filterExpr .and rfl) .nil)
  have hanswer : (run noteAlias (noteCalls "milk")).answer .select Dialect.sqlite =
      .ok (noteStatement "milk") :=
    Result.eq_ok_of_toOption_eq_some (by decide +kernel)
  have hanswer' : (run noteAlias (noteCalls "' OR 1 = 1")).answer .select Dialect.sqlite =
      .ok (noteStatement "' OR 1 = 1") :=
    Result.eq_ok_of_toOption_eq_some (by decide +kernel)
  obtain ⟨halike, hchains⟩ := Dialect.sql_independent_of_values .sqlite
  exact ⟨(halike noteTable _ _ hrows).1,
    hchains noteAlias _ _ .select .select _ _ hcalls (.same .select) hanswer hanswer'⟩

end Query

end RecordMapper
