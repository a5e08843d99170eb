import RecordMapper.Proofs.Database.Operation
import RecordMapper.Proofs.Query.Noninterference

/-!
# The first failure of a chain of calls

A call that fails leaves the query as it is, but for the error, and the calls behind it go on. The
error that is remembered in the end is that of the earliest call that failed, and every request is
answered with it, without looking at the dialect or sending anything. A request for single columns
resolves its own arguments before that, so it is answered with their error if they have one.
-/

set_option autoImplicit false

namespace RecordMapper

/-- The error of a computation that has failed. -/
def Result.error? {α : Type} : Result α → Option Error
  | .ok _ => none
  | .error e => some e

namespace Query

def tested (q : Query) (left : Argument) (test : Test) : Result Predicate := do
  q.predicate (← q.operand left none) test

def assignment (q : Query) (field value : Argument) : Result (ColumnPosition × Value) := do
  let p ← q.column field
  return (p, ← value.literal (q.context? (.column p)))

/-- The error of the call itself, whatever has failed before it. -/
def failure? (q : Query) : Call → Option Error
  | .filter _ left test => (q.tested left test).error?
  | .join kind source left test =>
    (tested { q with joins := q.joins ++ [{ kind, source }] } left test).error?
  | .groupBy field | .orderBy field _ => (q.column field).error?
  | .set field value => (q.assignment field value).error?
  | .filterExpr _ _ | .distinct | .limitTo _ | .startAt _ => none

/-- The errors of all calls that fail, in the order of the calls. -/
def failures (q : Query) : List Call → List Error
  | [] => []
  | c :: rest => (q.failure? c).toList ++ failures (q.apply c) rest

/-- The error of the arguments that come with the request itself. -/
def requestFailure? (q : Query) : Request → Option Error
  | .rows columns => (columns.mapM q.column).error?
  | _ => none

theorem error_call_eq {α : Type} {q : Query} {change : Query → α → Query} (made : Result α)
    (hchange : ∀ a, (change q a).error = q.error) :
    (q.call made change).error = q.error.or made.error? := by
  cases made with
  | ok a =>
    rw [Result.error?, Option.or_none]
    exact hchange a
  | error e => rfl

theorem error_addOn {q : Query} (h : q.joins ≠ []) (p : Predicate) :
    (q.addOn p).error = q.error := by
  unfold addOn
  split
  · rfl
  · next hnone => exact absurd (List.getLast?_eq_none_iff.mp hnone) h

/-- A failure is remembered if it is the first, and nothing else is. -/
theorem error_apply (q : Query) (c : Call) : (q.apply c).error = q.error.or (q.failure? c) := by
  cases c with
  | filter c left test => exact error_call_eq (q.tested left test) fun _ => rfl
  | join kind source left test =>
    apply error_call_eq (tested { q with joins := q.joins ++ [{ kind, source }] } left test)
    intro p
    exact error_addOn (by simp) p
  | groupBy field => exact error_call_eq (q.column field) fun _ => rfl
  | orderBy field descending => exact error_call_eq (q.column field) fun _ => rfl
  | set field value => exact error_call_eq (q.assignment field value) fun _ => rfl
  | filterExpr c e => exact (Option.or_none).symm
  | distinct => exact (Option.or_none).symm
  | limitTo n => exact (Option.or_none).symm
  | startAt n => exact (Option.or_none).symm

theorem error_foldl (q : Query) (calls : List Call) :
    (calls.foldl apply q).error = q.error.or (q.failures calls).head? := by
  induction calls generalizing q with
  | nil => exact (Option.or_none).symm
  | cons c rest ih =>
    rw [List.foldl_cons, ih, error_apply, failures, Option.or_assoc]
    cases q.failure? c with
    | none => rfl
    | some e => rfl

theorem error_run (source : Alias) (calls : List Call) :
    (run source calls).error = (failures { source } calls).head? :=
  error_foldl { source } calls

/-- The statement for a request, written in the dialect of the database. -/
def statement (q : Query) : Request → Session Statement
  | .select => q.selectStatement
  | .first => selectStatement { q with limit := q.limit.or (some 1) }
  | .count => q.countStatement
  | .rows columns => q.rowsStatement columns
  | .update => q.updateStatement
  | .delete => q.deleteStatement

theorem statement_eq (q : Query) (request : Request) :
    q.statement request = Session.write (q.draft request) := by
  cases request <;> rfl

section Remembered
variable {q : Query} {e : Error} (h : q.error = some e)
include h

theorem checked_of_error : q.checked = .error e := by
  rw [checked, h]

theorem draft_of_error (request : Request) :
    q.draft request = .error ((q.requestFailure? request).getD e) := by
  have hselect (projection : Projection) : q.selectDraft projection = .error e := by
    rw [selectDraft, checked_of_error h]
    rfl
  cases request with
  | select => exact hselect .record
  | first =>
    have hlimited : checked { q with limit := q.limit.or (some 1) } = .error e :=
      checked_of_error h
    change selectDraft { q with limit := q.limit.or (some 1) } .record = .error e
    rw [selectDraft, hlimited]
    rfl
  | count => exact hselect .count
  | rows columns =>
    change q.rowsDraft columns = .error ((columns.mapM q.column).error?.getD e)
    rw [rowsDraft]
    cases columns.mapM q.column with
    | ok ps => exact hselect (.columns ps)
    | error first => rfl
  | update =>
    change q.updateDraft = .error e
    rw [updateDraft, singleTableDraft, checked_of_error h]
    rfl
  | delete =>
    change q.deleteDraft = .error e
    rw [deleteDraft, singleTableDraft, checked_of_error h]
    rfl

end Remembered

theorem perform_of_statement {q : Query} {request : Request} {s : SessionState} {e : Error}
    (h : q.statement request s = .error e s) : q.perform request s = .error e s := by
  have hbind {α β : Type} {x : Session α} (hx : x s = .error e s) (f : α → Session β) :
      (x >>= f) s = .error e s := Session.bind_eq_error_iff.mpr (.inl hx)
  cases request with
  | select => exact hbind (hbind h _) _
  | first => exact hbind (hbind h _) _
  | count => exact hbind (hbind h _) _
  | rows columns => exact hbind (hbind h _) _
  | update => exact hbind (hbind h _) _
  | delete => exact hbind (hbind h _) _

theorem requestFailure?_eq_some_iff {q : Query} {request : Request} {first : Error} :
    q.requestFailure? request = some first ↔
      ∃ columns, request = .rows columns ∧ columns.mapM q.column = .error first := by
  constructor
  · intro h
    cases request with
    | rows columns =>
      refine ⟨columns, rfl, ?_⟩
      change (columns.mapM q.column).error? = some first at h
      cases hcolumns : columns.mapM q.column with
      | ok ps =>
        rw [hcolumns] at h
        cases h
      | error other =>
        rw [hcolumns] at h
        exact congrArg Except.error (Option.some.inj h)
    | select | first | count | update | delete => cases h
  · rintro ⟨columns, rfl, hcolumns⟩
    rw [requestFailure?, hcolumns]
    rfl

/-- Once a call has failed, every request fails and changes nothing. The error is that of the
earliest call that failed, whatever calls come behind it; only where single columns are asked for
and cannot be resolved it is the error of these, which may be another one. -/
theorem fails_with_first_failure_iff {source : Alias} {calls : List Call} {e : Error}
    {later : List Error} (h : failures { source } calls = e :: later) (request : Request)
    (s : SessionState) :
    let q := run source calls
    let resolves := ∀ columns first, request = .rows columns →
      columns.mapM q.column = .error first → first = e
    (q.statement request s = .error e s ↔ resolves) ∧
      (q.perform request s = .error e s ↔ resolves) ∧
      ∃ first, q.statement request s = .error first s ∧ q.perform request s = .error first s := by
  intro q resolves
  have herror : q.error = some e := by
    rw [error_run, h]
    rfl
  have hstatement : q.statement request s = .error ((q.requestFailure? request).getD e) s := by
    rw [statement_eq, draft_of_error herror]
    rfl
  have hperform := perform_of_statement hstatement
  have hresolves : (q.requestFailure? request).getD e = e ↔ resolves := by
    constructor
    · intro hsame columns first hrequest hcolumns
      rw [requestFailure?_eq_some_iff.mpr ⟨columns, hrequest, hcolumns⟩] at hsame
      exact hsame
    · intro hall
      cases hfailure : q.requestFailure? request with
      | none => rfl
      | some first =>
        obtain ⟨columns, hrequest, hcolumns⟩ := requestFailure?_eq_some_iff.mp hfailure
        exact hall columns first hrequest hcolumns
  refine ⟨?_, ?_, _, hstatement, hperform⟩
  · rw [← hresolves, hstatement]
    exact ⟨fun heq => (EStateM.Result.error.inj heq).1, fun heq => by rw [heq]⟩
  · rw [← hresolves, hperform]
    exact ⟨fun heq => (EStateM.Result.error.inj heq).1, fun heq => by rw [heq]⟩

/-- Ordering by a text fails, and so does grouping by a column of another table. -/
def strayCalls : List Call :=
  [.orderBy (.text "body") false, .groupBy (.column ⟨none, "authors", "name", .varchar, .name⟩),
    .limitTo 3]

def strayState : SessionState where
  workspace := {}
  database := { connection := { product := "SQLite", version := "3.45.1" } }

theorem failures_stray : failures { source := noteAlias } strayCalls =
    [.unmappedField (.notAColumn "notes"), .unmappedField (.notInQuery "authors" "name")] := rfl

/-- An update and a request for a column that exists fail with the first of the two errors. -/
theorem fails_with_first_failure_stray :
    let q := run noteAlias strayCalls
    failures { source := noteAlias } strayCalls =
        [.unmappedField (.notAColumn "notes"), .unmappedField (.notInQuery "authors" "name")] ∧
      q.perform .update strayState = .error (.unmappedField (.notAColumn "notes")) strayState ∧
      q.perform (.rows [.column ⟨none, "notes", "body", .varchar, .name⟩]) strayState =
        .error (.unmappedField (.notAColumn "notes")) strayState := by
  intro q
  refine ⟨failures_stray, ?_, ?_⟩
  · apply (fails_with_first_failure_iff failures_stray .update strayState).2.1.mpr
    exact nofun
  · apply (fails_with_first_failure_iff failures_stray (.rows _) strayState).2.1.mpr
    rintro columns first ⟨⟩ hcolumns
    cases hcolumns

/-- A request for a column that does not exist fails with its own error. -/
theorem rows_not_first_failure_stray :
    let q := run noteAlias [.orderBy (.text "body") false]
    let columns := [Argument.column ⟨none, "authors", "name", .varchar, .name⟩]
    failures { source := noteAlias } [.orderBy (.text "body") false] =
        [.unmappedField (.notAColumn "notes")] ∧
      q.statement (.rows columns) strayState =
        .error (.unmappedField (.notInQuery "authors" "name")) strayState ∧
      q.perform (.rows columns) strayState =
        .error (.unmappedField (.notInQuery "authors" "name")) strayState ∧
      q.statement (.rows columns) strayState ≠
        .error (.unmappedField (.notAColumn "notes")) strayState := by
  intro q columns
  have hstatement : q.statement (.rows columns) strayState =
      .error (.unmappedField (.notInQuery "authors" "name")) strayState := rfl
  refine ⟨rfl, hstatement, perform_of_statement hstatement, ?_⟩
  rw [hstatement]
  intro heq
  cases heq

end Query

end RecordMapper
