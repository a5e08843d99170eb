import RecordMapper.Proofs.Database.Operation
import RecordMapper.Site

/-!
# Accounts of what has been sent

Whatever a database is used for, the use hands certain statements to its connection, whether it
succeeds or fails, and these are the statements that it records in the statistics.
-/

set_option autoImplicit false

namespace RecordMapper

namespace Session
variable {α β : Type}

/-- However the computation ends, the connection has received certain statements by then, and these
have been recorded in the statistics. -/
def Accounts (x : Session α) : Prop :=
  ∀ s : SessionState, ∃ stmts, s.Sent stmts (x.after s)

theorem after_bind (x : Session α) (f : α → Session β) (s : SessionState) :
    (x >>= f).after s =
      match x s with
      | .ok a next => (f a).after next
      | .error _ next => next := by
  change (match EStateM.bind x f s with | .ok _ s' => s' | .error _ s' => s') = _
  rw [EStateM.bind]
  cases x s <;> rfl

theorem accounts_pure (a : α) : Accounts (pure a) := fun s => ⟨[], .refl s⟩

theorem Accounts.bind {x : Session α} (hx : x.Accounts) {f : α → Session β}
    (hf : ∀ a, (f a).Accounts) : Accounts (x >>= f) := by
  intro s
  obtain ⟨stmts, hsent⟩ := hx s
  rw [after_bind]
  rw [after] at hsent
  cases hrun : x s with
  | error e next =>
    rw [hrun] at hsent
    exact ⟨stmts, hsent⟩
  | ok a next =>
    rw [hrun] at hsent
    obtain ⟨more, hmore⟩ := hf a next
    exact ⟨stmts ++ more, hsent.trans hmore⟩

theorem accounts_get : Accounts (get : Session SessionState) := fun s => ⟨[], .refl s⟩

theorem accounts_of_prepares {x : Session α} {result : SessionState → Result α}
    (h : ∀ s, Prepares x s (result s)) : x.Accounts := by
  intro s
  obtain ⟨s', hsent, -, hx⟩ := h s
  refine ⟨[], ?_⟩
  rw [after, hx]
  cases result s <;> exact hsent

theorem accounts_ofResult (result : Result α) : Accounts (ofResult result) :=
  accounts_of_prepares fun _ => prepares_ofResult result

theorem accounts_describe (model : Model) : Accounts (describe model) :=
  accounts_of_prepares fun _ => prepares_describe model

theorem accounts_dialect : Accounts dialect := accounts_of_prepares fun _ => prepares_dialect

theorem accounts_send {way : Connection → Statement → Connection × Except DriverError α}
    (hway : IsWay way) (stmt : Statement) : Accounts (send way stmt) := by
  intro s
  obtain ⟨s', hsent, ⟨a, hrun, -⟩ | ⟨fault, hrun, -⟩⟩ := send_cases hway stmt s
  · refine ⟨[stmt], ?_⟩
    rwa [after, hrun]
  · refine ⟨[stmt], ?_⟩
    rwa [after, hrun]

theorem accounts_execute (stmt : Statement) : Accounts (execute stmt) :=
  accounts_send isWay_execute stmt

theorem accounts_insertRow (m : Mapping) (r : Record) : Accounts (insertRow m r) :=
  (accounts_ofResult _).bind fun _ => accounts_dialect.bind fun _ =>
    (accounts_ofResult _).bind accounts_execute

theorem accounts_insertRows (m : Mapping) (rs : List Record) (sum : UInt64) :
    Accounts (insertRows m rs sum) := by
  induction rs generalizing sum with
  | nil => exact accounts_pure sum
  | cons r rest ih => exact (accounts_insertRow m r).bind fun n => ih (sum + n)

theorem accounts_createIndexes (d : Dialect) (t : Table) (indexes : List Index) :
    Accounts (createIndexes d t indexes) := by
  induction indexes with
  | nil => exact accounts_pure ()
  | cons i rest ih =>
    exact (accounts_ofResult _).bind fun stmt => (accounts_execute stmt).bind fun _ => ih

theorem accounts_createTable (model : Model) : Accounts (createTable model) := by
  refine (accounts_describe model).bind fun m => accounts_get.bind fun s => ?_
  change Accounts (if _ then _ else _)
  split
  · refine accounts_dialect.bind fun d => (accounts_execute _).bind fun _ => ?_
    exact accounts_createIndexes d m.table m.table.indexes
  · exact accounts_pure ()

theorem accounts_dropTable (model : Model) : Accounts (dropTable model) :=
  (accounts_describe model).bind fun _ => accounts_dialect.bind fun _ =>
    (accounts_execute _).bind fun _ => accounts_pure ()

end Session

/-- All statements of an operation are written before the first is sent. -/
theorem Operation.accounts_run (op : Operation) : op.run.Accounts := by
  intro s
  have hrun := op.writesFirst_run s
  rw [Session.after]
  cases hwritten : s.statements op with
  | error e =>
    obtain ⟨s', hfailed, hsent⟩ := hrun.unwritten e hwritten
    rw [hfailed]
    exact ⟨[], hsent⟩
  | ok stmts =>
    have hdelivers := hrun.written stmts hwritten
    cases houtcome : op.run s with
    | ok a s' => exact ⟨stmts, hdelivers.sent a s' houtcome⟩
    | error e s' =>
      rcases hdelivers.failed e s' houtcome with ⟨hsent, -⟩ | ⟨sent, -, hsent, -⟩
      · exact ⟨stmts, hsent⟩
      · exact ⟨sent, hsent⟩

theorem Usage.exists_sent (usage : Usage) (s : SessionState) :
    ∃ stmts, s.Sent stmts (usage.after s) := by
  cases usage with
  | operation op => exact op.accounts_run s
  | insertAll model rs =>
    exact (Session.accounts_describe model).bind
      (fun m => Session.accounts_insertRows m rs 0) s
  | createTable model => exact Session.accounts_createTable model s
  | dropTable model => exact Session.accounts_dropTable model s
  | execute stmt => exact Session.accounts_execute stmt s
  | query stmt => exact Session.accounts_send isWay_query stmt s
  | write q request =>
    exact Session.accounts_of_prepares (fun _ => Session.prepares_write (q.draft request)) s
  | dialect => exact Session.accounts_dialect s

end RecordMapper
