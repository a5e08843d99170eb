import RecordMapper.Proofs.Query.Encoding
import RecordMapper.Proofs.Query.Failure

/-!
# The places of an argument

An argument is handed over as an operand of a condition, as what is grouped or ordered by, or on
either side of an assignment. At all of these places but the last it is resolved: an argument that
denotes a column stands there as the column, and nothing else of it is left in the query; one that
is refused makes the call fail. What is assigned is never resolved.
-/

set_option autoImplicit false

namespace RecordMapper

/-- What a condition is for: it filters rows, or joins a table. -/
inductive Purpose
  | filter (c : Connective)
  | join (kind : JoinKind) (source : Alias)

/-- A condition without one of its arguments. -/
inductive Gap
  | left (test : Test)
  | right (left : Argument) (op : Operator)
  | low (left high : Argument)
  | high (left low : Argument)

/-- The place of an argument in a call, with all else that the call is made with. -/
inductive Role
  | condition (purpose : Purpose) (gap : Gap)
  | grouped
  | ordered (descending : Bool)
  | assigned (value : Argument)
  | written (field : Argument)

namespace Purpose

def call : Purpose → Argument → Test → Call
  | filter c => .filter c
  | join kind source => .join kind source

/-- The query in which the condition is found: a joined table belongs to it. -/
def scope (q : Query) : Purpose → Query
  | filter _ => q
  | join kind source => { q with joins := q.joins ++ [{ kind, source }] }

def target : Purpose → Target
  | filter c => .filter c
  | join _ _ => .on

/-- The condition that was made last. -/
def latest? (q : Query) : Purpose → Option Predicate
  | filter _ => q.filters.getLast?.map (·.2)
  | join _ _ => q.joins.getLast?.bind (·.on.getLast?)

variable (u : Purpose) (q : Query)

theorem apply_call (left : Argument) (test : Test) :
    q.apply (u.call left test) =
      (u.scope q).call ((u.scope q).tested left test) fun q p => q.push u.target p := by
  cases u <;> rfl

theorem failure?_call (left : Argument) (test : Test) :
    q.failure? (u.call left test) = ((u.scope q).tested left test).error? := by
  cases u <;> rfl

theorem latest?_push (p : Predicate) : u.latest? ((u.scope q).push u.target p) = some p := by
  cases u with
  | filter c => simp [latest?, scope, target, Query.push]
  | join kind source => simp [latest?, scope, target, Query.push, Query.addOn]

end Purpose

namespace Gap

def leading (arg : Argument) : Gap → Argument
  | left _ => arg
  | right other _ | low other _ | high other _ => other

def testing (arg : Argument) : Gap → Test
  | left test => test
  | right _ op => .compare op arg
  | low _ other => .between arg other
  | high _ other => .between other arg

/-- The condition with its argument. -/
def tested (g : Gap) (q : Query) (arg : Argument) : Result Predicate :=
  q.tested (g.leading arg) (g.testing arg)

/-- The error of the arguments before the missing one. -/
def before? (q : Query) : Gap → Option Error
  | left _ => none
  | right other _ | low other _ => (q.operand other none).error?
  | high other least => (do q.operand least (q.context? (← q.operand other none))).error?

/-- What stands in the place of the missing argument. -/
def operand? : Gap → Predicate → Option Operand
  | left _, .compare o _ _ | left _, .like o _ | left _, .between o _ _ | left _, .isNull o _ => some o
  | right _ _, .compare _ _ o => some o
  | low _ _, .between _ o _ => some o
  | high _ _, .between _ _ o => some o
  | _, _ => none

variable {g : Gap} {q : Query} {arg arg' : Argument} {p : Predicate} {e : Error}

theorem tested_congr (h : ∀ cx, q.operand arg cx = q.operand arg' cx) :
    g.tested q arg = g.tested q arg' := by
  cases g with
  | left test => simp only [tested, Query.tested, leading, testing, h]
  | right other op => simp only [tested, Query.tested, leading, testing, Query.predicate, h]
  | low other high => simp only [tested, Query.tested, leading, testing, Query.predicate, h]
  | high other low => simp only [tested, Query.tested, leading, testing, Query.predicate, h]

/-- In its place stands what the argument is resolved to; a value may have been recoded. -/
theorem exists_operand? (h : g.tested q arg = .ok p) :
    ∃ cx o o', q.operand arg cx = .ok o ∧ g.operand? p = some o' ∧ o'.masked = o.masked := by
  obtain ⟨o, ho, h⟩ := Result.bind_eq_ok_iff.mp h
  cases g with
  | left test =>
    cases test with
    | compare op right =>
      obtain ⟨_, -, h⟩ := Result.bind_eq_ok_iff.mp h
      obtain ⟨coerced, hcoerced, h⟩ := Result.bind_eq_ok_iff.mp h
      obtain rfl := Except.ok.inj h
      exact ⟨none, o, coerced, ho, rfl, Query.masked_coerce hcoerced⟩
    | like pattern =>
      obtain rfl := Except.ok.inj h
      exact ⟨none, o, o, ho, rfl, rfl⟩
    | between low high =>
      obtain ⟨_, -, h⟩ := Result.bind_eq_ok_iff.mp h
      obtain ⟨_, -, h⟩ := Result.bind_eq_ok_iff.mp h
      obtain rfl := Except.ok.inj h
      exact ⟨none, o, o, ho, rfl, rfl⟩
    | isNull negated =>
      obtain rfl := Except.ok.inj h
      exact ⟨none, o, o, ho, rfl, rfl⟩
  | right other op =>
    obtain ⟨r, hr, h⟩ := Result.bind_eq_ok_iff.mp h
    obtain ⟨_, -, h⟩ := Result.bind_eq_ok_iff.mp h
    obtain rfl := Except.ok.inj h
    exact ⟨_, r, r, hr, rfl, rfl⟩
  | low other high =>
    obtain ⟨l, hl, h⟩ := Result.bind_eq_ok_iff.mp h
    obtain ⟨_, -, h⟩ := Result.bind_eq_ok_iff.mp h
    obtain rfl := Except.ok.inj h
    exact ⟨_, l, l, hl, rfl, rfl⟩
  | high other low =>
    obtain ⟨_, -, h⟩ := Result.bind_eq_ok_iff.mp h
    obtain ⟨r, hr, h⟩ := Result.bind_eq_ok_iff.mp h
    obtain rfl := Except.ok.inj h
    exact ⟨_, r, r, hr, rfl, rfl⟩

theorem error?_tested (h : ∀ cx, q.operand arg cx = .error e) :
    (g.tested q arg).error? = some ((g.before? q).getD e) := by
  cases g with
  | left test =>
    simp only [tested, Query.tested, leading, testing, before?, h]
    rfl
  | right other op =>
    simp only [tested, Query.tested, leading, testing, before?, Query.predicate, h]
    cases q.operand other none <;> rfl
  | low other high =>
    simp only [tested, Query.tested, leading, testing, before?, Query.predicate, h]
    cases q.operand other none <;> rfl
  | high other low =>
    simp only [tested, Query.tested, leading, testing, before?, Query.predicate, h]
    cases q.operand other none with
    | error first => rfl
    | ok o =>
      change (q.operand low (q.context? o) >>= fun _ => Except.error e).error? =
        some ((q.operand low (q.context? o)).error?.getD e)
      cases q.operand low (q.context? o) <;> rfl

end Gap

namespace Role

def call (arg : Argument) : Role → Call
  | condition u g => u.call (g.leading arg) (g.testing arg)
  | grouped => .groupBy arg
  | ordered descending => .orderBy arg descending
  | assigned value => .set arg value
  | written field => .set field arg

/-- The query whose tables are asked for the argument. -/
def scope (q : Query) : Role → Query
  | condition u _ => u.scope q
  | _ => q

def Resolves : Role → Prop
  | written _ => False
  | _ => True

/-- The error of the arguments before this one in the same call. -/
def before? (q : Query) : Role → Option Error
  | condition u g => g.before? (u.scope q)
  | written field => (q.column field).error?
  | _ => none

/-- What stands in the place of the argument, of all that the query has there what came last. -/
def held? (q : Query) : Role → Option Operand
  | condition u g => (u.latest? q).bind g.operand?
  | grouped => q.grouping.getLast?.map .column
  | ordered _ => q.ordering.getLast?.map fun item => .column item.1
  | assigned _ => q.assignments.getLast?.map fun a => .column a.1
  | written _ => q.assignments.getLast?.map fun a => .value a.2

end Role

namespace Query

variable {q : Query} {arg arg' : Argument} {p : ColumnPosition} {e : Error}

theorem column_of_resolve (h : q.resolve arg = .ok (some p)) : q.column arg = .ok p := by
  rw [column, h]
  rfl

theorem column_of_error (h : q.resolve arg = .error e) : q.column arg = .error e := by
  rw [column, h]
  rfl

theorem operand_of_error (h : q.resolve arg = .error e) (cx : Option FieldContext) :
    q.operand arg cx = .error e := by
  rw [operand, h]
  rfl

theorem resolve_of_column (h : q.column arg = .ok p) : q.resolve arg = .ok (some p) := by
  obtain ⟨found, hfound, h⟩ := Result.bind_eq_ok_iff.mp h
  cases found with
  | none => cases h
  | some position =>
    obtain rfl := Except.ok.inj h
    exact hfound

/-- An operand is the column that the argument denotes, or else a value. -/
theorem resolve_of_operand {cx : Option FieldContext} {o : Operand}
    (h : q.operand arg cx = .ok o) :
    (∃ p, o = .column p ∧ q.resolve arg = .ok (some p)) ∨
      ∃ v, o = .value v ∧ q.resolve arg = .ok none := by
  obtain ⟨found, hfound, h⟩ := Result.bind_eq_ok_iff.mp h
  cases found with
  | some p =>
    obtain rfl := Except.ok.inj h
    exact .inl ⟨p, rfl, hfound⟩
  | none =>
    obtain ⟨v, -, h⟩ := Result.bind_eq_ok_iff.mp h
    obtain rfl := Except.ok.inj h
    exact .inr ⟨v, rfl, hfound⟩

/-- A call that does not fail makes what it is asked to make. -/
theorem call_of_error? {α : Type} {made : Result α} (change : Query → α → Query)
    (h : made.error? = none) : ∃ a, made = .ok a ∧ q.call made change = change q a := by
  cases made with
  | ok a => exact ⟨a, rfl, rfl⟩
  | error e => cases h

end Query

namespace Role

variable {r : Role} {q : Query} {arg arg' : Argument} {p : ColumnPosition} {e : Error}

/-- Of an argument that denotes a column only the column matters. -/
theorem apply_congr (hr : r.Resolves) (h : (r.scope q).resolve arg = .ok (some p))
    (h' : (r.scope q).resolve arg' = .ok (some p)) :
    q.apply (r.call arg) = q.apply (r.call arg') ∧
      q.failure? (r.call arg) = q.failure? (r.call arg') := by
  have hcolumn : (r.scope q).column arg = (r.scope q).column arg' := by
    rw [Query.column_of_resolve h, Query.column_of_resolve h']
  cases r with
  | condition u g =>
    have htested : g.tested (u.scope q) arg = g.tested (u.scope q) arg' :=
      Gap.tested_congr fun cx =>
        (Query.operand_column h cx).trans (Query.operand_column h' cx).symm
    change q.apply (u.call _ _) = q.apply (u.call _ _) ∧
      q.failure? (u.call _ _) = q.failure? (u.call _ _)
    rw [u.apply_call, u.apply_call, u.failure?_call, u.failure?_call]
    exact ⟨congrArg (fun made => (u.scope q).call made fun q p => q.push u.target p) htested,
      congrArg Result.error? htested⟩
  | grouped =>
    change q.groupBy arg = q.groupBy arg' ∧ (q.column arg).error? = (q.column arg').error?
    rw [Query.groupBy, Query.groupBy, show q.column arg = q.column arg' from hcolumn]
    exact ⟨rfl, rfl⟩
  | ordered descending =>
    change q.orderBy arg descending = q.orderBy arg' descending ∧
      (q.column arg).error? = (q.column arg').error?
    rw [Query.orderBy, Query.orderBy, show q.column arg = q.column arg' from hcolumn]
    exact ⟨rfl, rfl⟩
  | assigned value =>
    change q.set arg value = q.set arg' value ∧
      (q.assignment arg value).error? = (q.assignment arg' value).error?
    rw [Query.set, Query.set, Query.assignment, Query.assignment,
      show q.column arg = q.column arg' from hcolumn]
    exact ⟨rfl, rfl⟩
  | written field => exact hr.elim

/-- In a call that does not fail stands the column that the argument denotes, or else a value. -/
theorem held?_of_accepted (hr : r.Resolves) (h : q.failure? (r.call arg) = none) :
    (∃ p, r.held? (q.apply (r.call arg)) = some (.column p) ∧
      (r.scope q).resolve arg = .ok (some p)) ∨
    ∃ v, r.held? (q.apply (r.call arg)) = some (.value v) ∧
      (r.scope q).resolve arg = .ok none := by
  cases r with
  | condition u g =>
    change q.failure? (u.call _ _) = none at h
    rw [u.failure?_call] at h
    obtain ⟨made, hmade, hcall⟩ := Query.call_of_error? (fun q p => q.push u.target p) h
    have hheld : held? (q.apply (call arg (condition u g))) (condition u g) = g.operand? made := by
      change (u.latest? (q.apply (u.call _ _))).bind g.operand? = _
      rw [u.apply_call, hcall, u.latest?_push, Option.bind_some]
    obtain ⟨cx, o, o', ho, ho', hmasked⟩ := Gap.exists_operand? hmade
    rw [hheld, ho']
    rcases Query.resolve_of_operand ho with ⟨p, rfl, hp⟩ | ⟨v, rfl, hnone⟩
    · cases o' with
      | column p' =>
        obtain rfl := Operand.column.inj hmasked
        exact .inl ⟨p', rfl, hp⟩
      | value v => cases hmasked
    · cases o' with
      | column p' => cases hmasked
      | value v' => exact .inr ⟨v', rfl, hnone⟩
  | grouped =>
    obtain ⟨p, hp, hcall⟩ := Query.call_of_error?
      (fun q p => { q with grouping := q.grouping ++ [p] } : Query → ColumnPosition → Query) h
    refine .inl ⟨p, ?_, Query.resolve_of_column hp⟩
    change (q.groupBy arg).grouping.getLast?.map Operand.column = _
    rw [Query.groupBy, hcall, List.getLast?_concat, Option.map_some]
  | ordered descending =>
    obtain ⟨p, hp, hcall⟩ := Query.call_of_error?
      (fun q p => { q with ordering := q.ordering ++ [(p, descending)] } :
        Query → ColumnPosition → Query) h
    refine .inl ⟨p, ?_, Query.resolve_of_column hp⟩
    change (q.orderBy arg descending).ordering.getLast?.map (fun item => Operand.column item.1) = _
    rw [Query.orderBy, hcall, List.getLast?_concat, Option.map_some]
  | assigned value =>
    obtain ⟨a, ha, hcall⟩ := Query.call_of_error?
      (fun q a => { q with assignments := q.assignments ++ [a] } :
        Query → ColumnPosition × Value → Query) h
    obtain ⟨p, hp, ha⟩ := Result.bind_eq_ok_iff.mp ha
    obtain ⟨v, -, ha⟩ := Result.bind_eq_ok_iff.mp ha
    obtain rfl := Except.ok.inj ha
    refine .inl ⟨p, ?_, Query.resolve_of_column hp⟩
    change (q.call (q.assignment arg value) _).assignments.getLast?.map
      (fun a => Operand.column a.1) = _
    rw [hcall, List.getLast?_concat, Option.map_some]
  | written field => exact hr.elim

/-- An argument that is refused makes the call fail, with its error unless one of the arguments
before it has failed. -/
theorem failure?_of_refused (hr : r.Resolves) (h : (r.scope q).resolve arg = .error e) :
    q.failure? (r.call arg) = some ((r.before? q).getD e) := by
  cases r with
  | condition u g =>
    change q.failure? (u.call _ _) = _
    rw [u.failure?_call]
    exact Gap.error?_tested (Query.operand_of_error h)
  | grouped =>
    change (q.column arg).error? = _
    rw [Query.column_of_error (q := q) h]
    rfl
  | ordered descending =>
    change (q.column arg).error? = _
    rw [Query.column_of_error (q := q) h]
    rfl
  | assigned value =>
    change (q.assignment arg value).error? = _
    rw [Query.assignment, Query.column_of_error (q := q) h]
    rfl
  | written field => exact hr.elim

/-- What is assigned is a value, whatever the argument denotes. -/
theorem held?_of_written {field : Argument}
    (h : q.failure? ((written field).call arg) = none) :
    ∃ v, (written field).held? (q.apply ((written field).call arg)) = some (.value v) := by
  obtain ⟨a, -, hcall⟩ := Query.call_of_error?
    (fun q a => { q with assignments := q.assignments ++ [a] } :
      Query → ColumnPosition × Value → Query) h
  refine ⟨a.2, ?_⟩
  change (q.call (q.assignment field arg) _).assignments.getLast?.map
    (fun a => Operand.value a.2) = _
  rw [hcall, List.getLast?_concat, Option.map_some]

end Role

namespace Query

variable {q : Query} {arg : Argument} {fault : FieldFault} {e : Error} {request : Request}

/-- The request fails because of an argument that is not mapped, in every state of the database. -/
def Refuses (q : Query) (request : Request) : Prop :=
  ∃ fault, ∀ s, q.statement request s = .error (.unmappedField fault) s ∧
    q.perform request s = .error (.unmappedField fault) s

theorem refuses_of_draft (h : q.draft request = .error (.unmappedField fault)) :
    q.Refuses request := by
  refine ⟨fault, fun s => ?_⟩
  have hstatement : q.statement request s = .error (.unmappedField fault) s := by
    rw [statement_eq, h]
    rfl
  exact ⟨hstatement, perform_of_statement hstatement⟩

theorem exists_fault_of_resolve (h : q.resolve arg = .error e) : ∃ fault, e = .unmappedField fault := by
  unfold resolve at h
  split at h
  · cases h
  · split at h
    · exact ⟨_, (Except.error.inj h).symm⟩
    · split at h
      · exact ⟨_, (Except.error.inj h).symm⟩
      · cases h

theorem exists_fault_of_column (h : q.column arg = .error e) : ∃ fault, e = .unmappedField fault := by
  cases hfound : q.resolve arg with
  | error first =>
    rw [column_of_error hfound] at h
    obtain rfl := Except.error.inj h
    exact exists_fault_of_resolve hfound
  | ok found =>
    rw [column, hfound] at h
    cases found with
    | some p => cases h
    | none => exact ⟨_, (Except.error.inj h).symm⟩

theorem exists_fault_of_requestFailure? (h : q.requestFailure? request = some e) :
    ∃ fault, e = .unmappedField fault := by
  obtain ⟨columns, -, hcolumns⟩ := requestFailure?_eq_some_iff.mp h
  obtain ⟨arg, -, harg⟩ := Result.exists_of_mapM_eq_error hcolumns
  exact exists_fault_of_column harg

theorem refuses_of_error (h : q.error = some (.unmappedField fault)) (request : Request) :
    q.Refuses request := by
  have hdraft := draft_of_error h request
  cases hfailure : q.requestFailure? request with
  | none =>
    rw [hfailure] at hdraft
    exact refuses_of_draft hdraft
  | some first =>
    obtain ⟨other, rfl⟩ := exists_fault_of_requestFailure? hfailure
    rw [hfailure] at hdraft
    exact refuses_of_draft hdraft

/-- Asking for a column that is refused fails, whatever else is asked for. -/
theorem refuses_rows (h : q.column arg = .error e) {columns : List Argument} (hmem : arg ∈ columns) :
    q.Refuses (.rows columns) := by
  cases hcolumns : columns.mapM q.column with
  | ok ps =>
    obtain ⟨p, hp⟩ := Result.exists_of_mem_of_mapM_eq_ok hcolumns hmem
    rw [h] at hp
    cases hp
  | error first =>
    obtain ⟨other, -, hother⟩ := Result.exists_of_mapM_eq_error hcolumns
    obtain ⟨fault, rfl⟩ := exists_fault_of_column hother
    have hdraft : q.rowsDraft columns = .error (.unmappedField fault) := by
      rw [rowsDraft, hcolumns]
      rfl
    exact refuses_of_draft hdraft

end Query

namespace Role

variable {r : Role} {q : Query} {arg : Argument} {p : ColumnPosition} {fault : FieldFault}

/-- The argument stands for the column, and nothing else of it matters. -/
structure Takes (r : Role) (q : Query) (arg : Argument) (p : ColumnPosition) : Prop where
  resolves : (r.scope q).resolve arg = .ok (some p)
  same : ∀ other, (r.scope q).resolve other = .ok (some p) →
    q.apply (r.call arg) = q.apply (r.call other) ∧
      q.failure? (r.call arg) = q.failure? (r.call other)
  held : q.failure? (r.call arg) = none → r.held? (q.apply (r.call arg)) = some (.column p)

/-- The argument makes the call fail, and so, if nothing has failed before, every request,
whatever calls come in between. -/
structure Refuses (r : Role) (q : Query) (arg : Argument) (fault : FieldFault) : Prop where
  failure : q.failure? (r.call arg) = some ((r.before? q).getD (.unmappedField fault))
  requests : q.error = none → r.before? q = none → ∀ (later : List Call) (request : Request),
    (later.foldl Query.apply (q.apply (r.call arg))).Refuses request

theorem takes_of_resolve (hr : r.Resolves) (h : (r.scope q).resolve arg = .ok (some p)) :
    r.Takes q arg p := by
  refine ⟨h, fun other hother => apply_congr hr h hother, fun haccepted => ?_⟩
  rcases held?_of_accepted hr haccepted with ⟨p', hheld, hp'⟩ | ⟨v, -, hnone⟩
  · rw [h] at hp'
    obtain rfl := Option.some.inj (Except.ok.inj hp')
    exact hheld
  · rw [h] at hnone
    cases hnone

theorem refuses_of_resolve (hr : r.Resolves)
    (h : (r.scope q).resolve arg = .error (.unmappedField fault)) : r.Refuses q arg fault := by
  have hfailure := failure?_of_refused hr h
  refine ⟨hfailure, ?_⟩
  intro hq hbefore later request
  have herror : (later.foldl Query.apply (q.apply (r.call arg))).error =
      some (.unmappedField fault) := by
    rw [Query.error_foldl, Query.error_apply, hq, hfailure, hbefore]
    rfl
  exact Query.refuses_of_error herror request

end Role

end RecordMapper
