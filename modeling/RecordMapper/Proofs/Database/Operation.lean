import RecordMapper.Database.Operation
import RecordMapper.Proofs.Database.Sending
import RecordMapper.Proofs.Query.Chain

/-!
# Operations on a database

A record is inserted, updated, merged or deleted, or a query is asked for one of its answers. Every
operation writes all of its statements before it sends the first. So a failure comes before anything
is sent, unless the connection refuses a statement or its answer cannot be read.
-/

set_option autoImplicit false

namespace RecordMapper

namespace Query

/-- Reading the answer to the request fails with the error. -/
def Misreads (q : Query) (answer : Rows) (e : Error) : Request → Prop
  | .select => answer.rows.mapM q.read = .error e
  | .first => answer.first?.mapM q.read = .error e
  | .count => countOf answer = .error e
  | .rows _ | .update | .delete => False

end Query

namespace Operation

def Misreads (answer : Rows) (e : Error) : Operation → Prop
  | query q request => q.Misreads answer e request
  | _ => False

end Operation

namespace SessionState

/-- What is written for a record in this state. -/
def rowWritten {α : Type} (s : SessionState) (model : Model) (r : Record)
    (write : Dialect → Table → List Value → Result α) : Result α := do
  let m ← (s.workspace.describe model).1
  let values ← m.values r
  write s.dialect m.table values

/-- The statements of an operation as they are written in this state. -/
def statements (s : SessionState) : Operation → Result (List Statement)
  | .insert model r => (s.rowWritten model r Dialect.insert).map ([·])
  | .update model r => (s.rowWritten model r Dialect.update).map ([·])
  | .merge model r => (s.rowWritten model r Dialect.merge).map id
  | .delete model r => (s.rowWritten model r Dialect.delete).map ([·])
  | .query q request => (q.answer request s.dialect).map ([·])

end SessionState

namespace Session
variable {α : Type} {s : SessionState} {Unreadable : Rows → Error → Prop}

/-- What is written for a record, without being sent. -/
def rowWritten (model : Model) (r : Record) (write : Dialect → Table → List Value → Result α) :
    Session α := do
  let m ← describe model
  let values ← ofResult (m.values r)
  let d ← dialect
  ofResult (write d m.table values)

theorem prepares_rowWritten (model : Model) (r : Record)
    (write : Dialect → Table → List Value → Result α) :
    Prepares (rowWritten model r write) s (s.rowWritten model r write) := by
  refine (prepares_describe model).bind fun m s' hdialect => ?_
  refine (prepares_ofResult (m.values r)).bind fun values s'' hdialect' => ?_
  rw [← hdialect, ← hdialect']
  exact (prepares_dialect (s := s'')).bind fun d _ _ => prepares_ofResult _

theorem writesFirst_rowWritten (model : Model) (r : Record)
    (write : Dialect → Table → List Value → Result Statement) :
    WritesFirst (rowWritten model r write >>= execute) s
      ((s.rowWritten model r write).map ([·])) Unreadable :=
  (prepares_rowWritten model r write).writesFirst fun stmt _ => delivers_execute stmt

theorem insert_eq (model : Model) (r : Record) :
    insert model r = rowWritten model r Dialect.insert >>= execute := by
  simp only [rowWritten, bind_assoc]
  rfl

theorem update_eq (model : Model) (r : Record) :
    update model r = rowWritten model r Dialect.update >>= execute := by
  simp only [rowWritten, bind_assoc]
  rfl

theorem merge_eq (model : Model) (r : Record) :
    merge model r = rowWritten model r Dialect.merge >>= (executeAll · 0) := by
  simp only [rowWritten, bind_assoc]
  rfl

theorem delete_eq (model : Model) (r : Record) :
    delete model r = rowWritten model r Dialect.delete >>= execute := by
  simp only [rowWritten, bind_assoc]
  rfl

end Session

theorem Query.writesFirst_perform (q : Query) (request : Request) (s : SessionState) :
    Session.WritesFirst (q.perform request) s ((q.answer request s.dialect).map ([·]))
      (q.Misreads · · request) := by
  have hprepares := Session.prepares_write (s := s) (q.draft request)
  cases request with
  | select =>
    refine (hprepares.writesFirst fun stmt s' => ?_).map Outcome.records
    exact Session.delivers_read stmt fun _ _ h => h
  | first =>
    refine (hprepares.writesFirst fun stmt s' => ?_).map Outcome.first
    exact Session.delivers_read stmt fun _ _ h => h
  | count =>
    refine (hprepares.writesFirst fun stmt s' => ?_).map Outcome.count
    exact Session.delivers_read stmt fun _ _ h => h
  | rows columns =>
    refine (hprepares.writesFirst fun stmt s' => ?_).map Outcome.rows
    exact Session.delivers_query stmt
  | update =>
    refine (hprepares.writesFirst fun stmt s' => ?_).map Outcome.count
    exact Session.delivers_execute stmt
  | delete =>
    refine (hprepares.writesFirst fun stmt s' => ?_).map Outcome.count
    exact Session.delivers_execute stmt

namespace Operation

theorem writesFirst_run (op : Operation) (s : SessionState) :
    Session.WritesFirst op.run s (s.statements op) (op.Misreads · ·) := by
  cases op with
  | insert model r =>
    exact (Session.insert_eq model r ▸ Session.writesFirst_rowWritten model r _).map Outcome.count
  | update model r =>
    exact (Session.update_eq model r ▸ Session.writesFirst_rowWritten model r _).map Outcome.count
  | merge model r =>
    have hprepares := Session.prepares_rowWritten (s := s) model r Dialect.merge
    rw [run, Session.merge_eq]
    refine (hprepares.writesFirst fun stmts s' => ?_).map Outcome.count
    exact Session.delivers_executeAll stmts 0
  | delete model r =>
    exact (Session.delete_eq model r ▸ Session.writesFirst_rowWritten model r _).map Outcome.count
  | query q request => exact q.writesFirst_perform request s

/-- A failed operation has sent nothing, counted nothing and told no listener exactly if the failure
is neither a refusal by the connection nor an answer that could not be read. If one of its
statements cannot be written, none is sent; else they are sent in order, up to the first that is
refused. -/
theorem fails_before_sending (op : Operation) (s : SessionState) :
    (∀ e s', op.run s = .error e s' →
      (s.Sent [] s' ↔
        ¬ s.Refused e s' ∧
          ¬ ∃ answer, s.Answered Connection.query (.ok answer) s' ∧ op.Misreads answer e)) ∧
      (∀ e, s.statements op = .error e → ∃ s', op.run s = .error e s' ∧ s.Sent [] s') ∧
      ∀ stmts, s.statements op = .ok stmts →
        (∀ a s', op.run s = .ok a s' → s.Sent stmts s') ∧
          ∀ e s', op.run s = .error e s' → ∃ sent, sent <+: stmts ∧ s.Sent sent s' := by
  have hrun := op.writesFirst_run s
  refine ⟨fun e s' he => hrun.sent_nil_iff he, hrun.unwritten, fun stmts hstmts => ?_⟩
  have hdelivers := hrun.written stmts hstmts
  refine ⟨hdelivers.sent, fun e s' he => ?_⟩
  rcases hdelivers.failed e s' he with ⟨hsent, -⟩ | ⟨sent, hprefix, hsent, -⟩
  · exact ⟨stmts, List.prefix_rfl, hsent⟩
  · exact ⟨sent, hprefix, hsent⟩

/-- A table without a key, which no dialect merges into. -/
def markModel : Model where
  id := 0
  typeName := "marks"
  initial := {}
  description :=
    .setting (.field { fieldName := "label", slot := ["label"], type := .scalar .string }) .done

def markState : SessionState where
  workspace := { statistics := Statistics.subscribe {} |>.1 }
  database := { connection := { product := "Apache Derby", version := "10.14.2" } }

/-- On Derby, which merges by a `DELETE` and an `INSERT`, neither is sent. -/
theorem merge_mark_fails_before_sending :
    ∃ s', run (.merge markModel ⟨[(["label"], .scalar (.string "x"))]⟩) markState =
        .error (.unsupportedModel "marks" (.keyNeeded "merge")) s' ∧
      markState.Sent [] s' ∧
      ¬ markState.Refused (.unsupportedModel "marks" (.keyNeeded "merge")) s' := by
  obtain ⟨hfails, hunwritten, -⟩ :=
    fails_before_sending (.merge markModel ⟨[(["label"], .scalar (.string "x"))]⟩) markState
  obtain ⟨s', hrun, hsent⟩ := hunwritten (.unsupportedModel "marks" (.keyNeeded "merge")) rfl
  exact ⟨s', hrun, hsent, ((hfails _ s' hrun).mp hsent).1⟩

end Operation

end RecordMapper
