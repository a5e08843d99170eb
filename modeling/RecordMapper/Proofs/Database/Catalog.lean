import RecordMapper.Proofs.Database.Accounting
import RecordMapper.Proofs.Workspace.Description

/-!
# The catalog in operations

What is done with a database has to do with the catalog only in that a model is described first, if
its mapping is needed. What comes behind that neither reads the catalog nor changes it.
-/

set_option autoImplicit false

namespace RecordMapper

abbrev Catalog := List (Nat × Result Mapping)

def SessionState.withCatalog (s : SessionState) (catalog : Catalog) : SessionState :=
  { s with workspace.catalog := catalog }

namespace Session
variable {α β : Type}

/-- The computation neither reads the catalog nor changes it. -/
def IgnoresCatalog (x : Session α) : Prop :=
  ∀ s catalog, x (s.withCatalog catalog) =
    match x s with
    | .ok a s' => .ok a (s'.withCatalog catalog)
    | .error e s' => .error e (s'.withCatalog catalog)

namespace IgnoresCatalog

theorem bind {x : Session α} (hx : x.IgnoresCatalog) {f : α → Session β}
    (hf : ∀ a, (f a).IgnoresCatalog) : IgnoresCatalog (x >>= f) := by
  intro s catalog
  change EStateM.bind x f _ = match EStateM.bind x f s with
    | .ok a s' => .ok a (s'.withCatalog catalog)
    | .error e s' => .error e (s'.withCatalog catalog)
  rw [EStateM.bind, EStateM.bind, hx s catalog]
  cases x s with
  | ok a s' => exact hf a s' catalog
  | error e s' => rfl

variable {x : Session α} (hx : x.IgnoresCatalog)
include hx

theorem after_withCatalog (s : SessionState) (catalog : Catalog) :
    x.after (s.withCatalog catalog) = (x.after s).withCatalog catalog := by
  rw [after, after, hx]
  cases x s <;> rfl

theorem catalog_after (s : SessionState) :
    (x.after s).workspace.catalog = s.workspace.catalog := by
  have hsame := hx.after_withCatalog s s.workspace.catalog
  exact congrArg (·.workspace.catalog) hsame

end IgnoresCatalog

theorem ignoresCatalog_pure (a : α) : IgnoresCatalog (pure a) := fun _ _ => rfl

theorem ignoresCatalog_ofResult (result : Result α) : IgnoresCatalog (ofResult result) := by
  intro s catalog
  cases result <;> rfl

/-- The database does not know of the catalog. -/
theorem ignoresCatalog_get {f : Database → Session α} (hf : ∀ d, (f d).IgnoresCatalog) :
    IgnoresCatalog (get >>= fun s => f s.database) := fun s => hf s.database s

theorem ignoresCatalog_dialect : IgnoresCatalog dialect := by
  intro s catalog
  have hdatabase : (s.withCatalog catalog).database = s.database := rfl
  simp only [dialect, Bind.bind, EStateM.bind, get_apply, hdatabase]
  cases s.database.dialect with
  | some d => rfl
  | none =>
    rcases s.database.choose with ⟨d, _ | e⟩
    · rfl
    · rfl

theorem ignoresCatalog_send (way : Connection → Statement → Connection × Except DriverError α)
    (stmt : Statement) : IgnoresCatalog (send way stmt) := by
  intro s catalog
  have hdatabase : (s.withCatalog catalog).database = s.database := rfl
  simp only [send, announce, log, Bind.bind, EStateM.bind, get_apply, modify_apply, hdatabase]
  rcases way s.database.connection stmt with ⟨c, fault | a⟩
  · rfl
  · rfl

theorem ignoresCatalog_execute (stmt : Statement) : IgnoresCatalog (execute stmt) :=
  ignoresCatalog_send Connection.execute stmt

theorem ignoresCatalog_query (stmt : Statement) : IgnoresCatalog (query stmt) :=
  ignoresCatalog_send Connection.query stmt

theorem ignoresCatalog_write (draft : StatementDraft) : IgnoresCatalog (write draft) :=
  (ignoresCatalog_ofResult draft).bind fun _ => ignoresCatalog_dialect.bind fun _ =>
    ignoresCatalog_ofResult _

theorem ignoresCatalog_insertRow (m : Mapping) (r : Record) : IgnoresCatalog (insertRow m r) :=
  (ignoresCatalog_ofResult _).bind fun _ => ignoresCatalog_dialect.bind fun _ =>
    (ignoresCatalog_ofResult _).bind ignoresCatalog_execute

theorem ignoresCatalog_insertRows (m : Mapping) (rs : List Record) (sum : UInt64) :
    IgnoresCatalog (insertRows m rs sum) := by
  induction rs generalizing sum with
  | nil => exact ignoresCatalog_pure sum
  | cons r rest ih => exact (ignoresCatalog_insertRow m r).bind fun n => ih (sum + n)

theorem ignoresCatalog_executeAll (stmts : List Statement) (last : UInt64) :
    IgnoresCatalog (executeAll stmts last) := by
  induction stmts generalizing last with
  | nil => exact ignoresCatalog_pure last
  | cons stmt rest ih => exact (ignoresCatalog_execute stmt).bind ih

theorem ignoresCatalog_createIndexes (d : Dialect) (t : Table) (indexes : List Index) :
    IgnoresCatalog (createIndexes d t indexes) := by
  induction indexes with
  | nil => exact ignoresCatalog_pure ()
  | cons i rest ih =>
    exact (ignoresCatalog_ofResult _).bind fun stmt =>
      (ignoresCatalog_execute stmt).bind fun _ => ih

/-- Whatever is asked of it, a query knows its mapping already. -/
theorem ignoresCatalog_perform (q : Query) (request : Request) :
    IgnoresCatalog (q.perform request) := by
  have hread {γ : Type} (draft : StatementDraft) (read : Rows → Result γ) :
      IgnoresCatalog (do ofResult (read (← query (← write draft)))) :=
    (ignoresCatalog_write draft).bind fun stmt => (ignoresCatalog_query stmt).bind fun _ =>
      ignoresCatalog_ofResult _
  have hexecute (draft : StatementDraft) : IgnoresCatalog (do execute (← write draft)) :=
    (ignoresCatalog_write draft).bind ignoresCatalog_execute
  cases request with
  | select => exact (hread _ _).bind fun _ => ignoresCatalog_pure _
  | first => exact (hread _ _).bind fun _ => ignoresCatalog_pure _
  | count => exact (hread _ _).bind fun _ => ignoresCatalog_pure _
  | rows columns =>
    exact ((ignoresCatalog_write _).bind ignoresCatalog_query).bind fun _ => ignoresCatalog_pure _
  | update => exact (hexecute _).bind fun _ => ignoresCatalog_pure _
  | delete => exact (hexecute _).bind fun _ => ignoresCatalog_pure _

/-- The computation describes the model first. What it does with the mapping has nothing to do with
the catalog. -/
def Describes (model : Model) (x : Session α) : Prop :=
  ∃ f : Mapping → Session α, (∀ m, (f m).IgnoresCatalog) ∧ x = describe model >>= f

theorem Describes.bind {model : Model} {x : Session α} (hx : x.Describes model)
    {g : α → Session β} (hg : ∀ a, (g a).IgnoresCatalog) : Describes model (x >>= g) := by
  obtain ⟨f, hf, rfl⟩ := hx
  exact ⟨fun m => f m >>= g, fun m => (hf m).bind hg, bind_assoc _ _ _⟩

section Records
variable (model : Model) (r : Record)

theorem ignoresCatalog_written (write : Dialect → Table → List Value → Result α)
    {send : α → Session β} (hsend : ∀ a, (send a).IgnoresCatalog) (m : Mapping) :
    IgnoresCatalog (do
      let values ← ofResult (m.values r)
      send (← ofResult (write (← dialect) m.table values))) :=
  (ignoresCatalog_ofResult _).bind fun _ => ignoresCatalog_dialect.bind fun _ =>
    (ignoresCatalog_ofResult _).bind hsend

theorem describes_insert : Describes model (insert model r) :=
  ⟨_, ignoresCatalog_written r Dialect.insert ignoresCatalog_execute, rfl⟩

theorem describes_update : Describes model (update model r) :=
  ⟨_, ignoresCatalog_written r Dialect.update ignoresCatalog_execute, rfl⟩

theorem describes_merge : Describes model (merge model r) :=
  ⟨_, ignoresCatalog_written r Dialect.merge (ignoresCatalog_executeAll · 0), rfl⟩

theorem describes_delete : Describes model (delete model r) :=
  ⟨_, ignoresCatalog_written r Dialect.delete ignoresCatalog_execute, rfl⟩

theorem describes_insertAll (rs : List Record) : Describes model (insertAll model rs) :=
  ⟨_, fun m => ignoresCatalog_insertRows m rs 0, rfl⟩

theorem describes_createTable : Describes model (createTable model) := by
  refine ⟨_, fun m => ?_, rfl⟩
  refine ignoresCatalog_get (f := fun d =>
    if d.settings.createIfMissing.getD m.table.createIfMissing = true then
      dialect >>= fun d => execute (d.createTable m.table) >>= fun _ =>
        createIndexes d m.table m.table.indexes
    else pure ()) fun d => ?_
  split
  · exact ignoresCatalog_dialect.bind fun d => (ignoresCatalog_execute _).bind fun _ =>
      ignoresCatalog_createIndexes d m.table m.table.indexes
  · exact ignoresCatalog_pure ()

theorem describes_dropTable : Describes model (dropTable model) :=
  ⟨_, fun _ => ignoresCatalog_dialect.bind fun _ => (ignoresCatalog_execute _).bind fun _ =>
    ignoresCatalog_pure (), rfl⟩

end Records

end Session

def Operation.model? : Operation → Option Model
  | insert model _ | update model _ | merge model _ | delete model _ => some model
  | query _ _ => none

/-- The model whose mapping is needed. -/
def Usage.model? : Usage → Option Model
  | operation op => op.model?
  | insertAll model _ | createTable model | dropTable model => some model
  | execute _ | query _ | write _ _ | dialect => none

theorem Usage.exists_describes {usage : Usage} {model : Model} (h : usage.model? = some model) :
    ∃ (α : Type) (x : Session α), x.Describes model ∧ ∀ s, usage.after s = x.after s := by
  cases usage with
  | operation op =>
    have hcount {x : Session UInt64} (hx : x.Describes model) :
        Session.Describes model (do return Outcome.count (← x)) :=
      hx.bind fun _ => Session.ignoresCatalog_pure _
    refine ⟨_, op.run, ?_, fun _ => rfl⟩
    cases op with
    | insert _ r =>
      obtain rfl := Option.some.inj h
      exact hcount (Session.describes_insert _ r)
    | update _ r =>
      obtain rfl := Option.some.inj h
      exact hcount (Session.describes_update _ r)
    | merge _ r =>
      obtain rfl := Option.some.inj h
      exact hcount (Session.describes_merge _ r)
    | delete _ r =>
      obtain rfl := Option.some.inj h
      exact hcount (Session.describes_delete _ r)
    | query q request => cases h
  | insertAll _ rs =>
    obtain rfl := Option.some.inj h
    exact ⟨_, _, Session.describes_insertAll _ rs, fun _ => rfl⟩
  | createTable _ =>
    obtain rfl := Option.some.inj h
    exact ⟨_, _, Session.describes_createTable _, fun _ => rfl⟩
  | dropTable _ =>
    obtain rfl := Option.some.inj h
    exact ⟨_, _, Session.describes_dropTable _, fun _ => rfl⟩
  | execute | query | write | dialect => cases h

theorem Usage.exists_ignoresCatalog {usage : Usage} (h : usage.model? = none) :
    ∃ (α : Type) (x : Session α), x.IgnoresCatalog ∧ ∀ s, usage.after s = x.after s := by
  cases usage with
  | operation op =>
    cases op with
    | query q request => exact ⟨_, _, Session.ignoresCatalog_perform q request, fun _ => rfl⟩
    | insert | update | merge | delete => cases h
  | execute stmt => exact ⟨_, _, Session.ignoresCatalog_execute stmt, fun _ => rfl⟩
  | query stmt => exact ⟨_, _, Session.ignoresCatalog_query stmt, fun _ => rfl⟩
  | write q request => exact ⟨_, _, Session.ignoresCatalog_write _, fun _ => rfl⟩
  | dialect => exact ⟨_, _, Session.ignoresCatalog_dialect, fun _ => rfl⟩
  | insertAll | createTable | dropTable => cases h

end RecordMapper
