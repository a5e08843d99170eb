import RecordMapper.Database.Tables
import RecordMapper.Proofs.Database.Sending

/-!
# Creating tables

The statements that create a table and its indexes are written and sent one by one. A dialect
refuses an index that is to be a plain hash index; the table and the indexes before it have been
created by then.
-/

set_option autoImplicit false

namespace RecordMapper

namespace Dialect
variable {d : Dialect} {e : Error}

theorem indexSupport_eq_error_iff {kind : IndexKind} {columns : Nat} :
    d.indexSupport kind columns = .error e ↔
      kind = .hash ∧
        (d.hashIndexes = .none ∧ e = d.lacks .hashIndexes ∨
          d.hashIndexes = .oneColumn ∧ 1 < columns ∧ e = d.lacks .wideHashIndexes) := by
  unfold indexSupport
  cases d.hashIndexes with
  | none => cases kind <;> simp [eq_comm]
  | oneColumn =>
    cases kind with
    | hash => by_cases hwide : 1 < columns <;> simp [hwide, eq_comm]
    | _ => simp
  | all => simp

/-- An index is refused if it is a plain hash index and the dialect has none, or none as wide. -/
theorem createIndex_eq_error_iff {t : Table} {i : Index} :
    d.createIndex t i = .error e ↔
      i.kind = .hash ∧
        (d.hashIndexes = .none ∧ e = d.lacks .hashIndexes ∨
          d.hashIndexes = .oneColumn ∧ 1 < i.columns.length ∧ e = d.lacks .wideHashIndexes) := by
  rw [← indexSupport_eq_error_iff]
  unfold createIndex
  cases d.indexSupport i.kind i.columns.length with
  | error first =>
    constructor <;>
    · intro h
      obtain rfl := Except.error.inj h
      rfl
  | ok kind =>
    refine ⟨fun h => ?_, nofun⟩
    cases hform : d.indexForm <;> rw [hform] at h <;> cases h

end Dialect

/-- A connection never says that a feature is missing. -/
theorem SessionState.not_refused_of_unsupportedFeature {s s' : SessionState} {dialect : String}
    {feature : Feature} : ¬ s.Refused (.unsupportedFeature dialect feature) s' := by
  rintro ⟨fault, hfault, -⟩
  unfold DriverError.toError at hfault
  cases hkind : fault.settledKind <;> rw [hkind] at hfault <;> cases hfault

namespace Session
variable {s s' : SessionState} {e : Error}

/-- After a statement a computation fails because it was refused, or later. -/
theorem execute_bind_eq_error {α : Type} {stmt : Statement} {f : UInt64 → Session α}
    (h : (execute stmt >>= f) s = .error e s') :
    s.Refused e s' ∨ ∃ n next, s.Sent [stmt] next ∧ f n next = .error e s' := by
  have hdelivers : Delivers (execute stmt) s [stmt] fun _ _ => False := delivers_execute stmt
  rcases bind_eq_error_iff.mp h with hfirst | ⟨n, next, hn, hrest⟩
  · rcases hdelivers.failed e s' hfirst with ⟨-, _, -, hfalse⟩ | ⟨_, -, -, hrefused⟩
    · exact hfalse.elim
    · exact .inl hrefused
  · exact .inr ⟨n, next, hdelivers.sent n next hn, hrest⟩

/-- The indexes before the first that the dialect refuses are made. -/
theorem createIndexes_cases (d : Dialect) (t : Table) (indexes : List Index)
    (h : createIndexes d t indexes s = .error e s') :
    s.Refused e s' ∨
      ∃ before i after stmts, indexes = before ++ i :: after ∧
        before.mapM (d.createIndex t) = .ok stmts ∧ d.createIndex t i = .error e ∧
        s.Sent stmts s' := by
  induction indexes generalizing s with
  | nil => cases h
  | cons i rest ih =>
    cases hwritten : d.createIndex t i with
    | error first =>
      rw [createIndexes, hwritten] at h
      obtain ⟨rfl, rfl⟩ := EStateM.Result.error.inj h
      exact .inr ⟨[], i, rest, [], rfl, rfl, hwritten, .refl s⟩
    | ok stmt =>
      rw [createIndexes, hwritten] at h
      change (execute stmt >>= fun _ => createIndexes d t rest) s = .error e s' at h
      rcases execute_bind_eq_error h with hrefused | ⟨n, next, hfirst, hrest⟩
      · exact .inl hrefused
      · rcases ih hrest with hrefusal | ⟨before, j, after, stmts, hsplit, hmade, hfault, hmore⟩
        · exact .inl (hrefusal.trans hfirst)
        · refine .inr ⟨i :: before, j, after, stmt :: stmts, ?_, ?_, hfault, ?_⟩
          · rw [hsplit, List.cons_append]
          · rw [List.mapM_cons, hwritten, hmade]
            rfl
          · exact hfirst.trans hmore

/-- The three ways in which the creation of a table fails. -/
theorem createTable_cases {model : Model} (h : createTable model s = .error e s') :
    (s.workspace.describe model).1 = .error e ∧ s.Sent [] s' ∨ s.Refused e s' ∨
      ∃ m before i after stmts, (s.workspace.describe model).1 = .ok m ∧
        m.table.indexes = before ++ i :: after ∧
        before.mapM (s.dialect.createIndex m.table) = .ok stmts ∧
        s.dialect.createIndex m.table i = .error e ∧
        s.Sent (s.dialect.createTable m.table :: stmts) s' := by
  unfold createTable at h
  obtain ⟨described, hdescribed, hdialect, hbind⟩ :=
    (prepares_describe (s := s) model).exists_bind_eq _
  rw [hbind] at h
  cases hm : (s.workspace.describe model).1 with
  | error first =>
    rw [hm] at h
    obtain ⟨rfl, rfl⟩ := EStateM.Result.error.inj h
    exact .inl ⟨rfl, hdescribed⟩
  | ok m =>
    rw [hm] at h
    refine .inr ?_
    change (if described.database.settings.createIfMissing.getD m.table.createIfMissing = true then
      _ else _ : Session Unit) described = _ at h
    split at h
    · obtain ⟨chosen, hchosen, -, hbind⟩ := prepares_dialect.exists_bind_eq _
      rw [hbind, hdialect] at h
      have hready := hdescribed.trans hchosen
      rcases execute_bind_eq_error h with hrefused | ⟨n, next, hfirst, hrest⟩
      · exact .inl (hrefused.trans hready)
      · have hcreated := hready.trans hfirst
        rcases createIndexes_cases _ _ _ hrest with
          hrefused | ⟨before, i, after, stmts, hsplit, hmade, hfault, hmore⟩
        · exact .inl (hrefused.trans hcreated)
        · exact .inr ⟨m, before, i, after, stmts, rfl, hsplit, hmade, hfault, hcreated.trans hmore⟩
    · cases h

/-- A creation that fails without having been refused anything has sent nothing exactly if the model
cannot be described. Otherwise an index is a hash index that the dialect cannot make, and the table
and all indexes before that one have been sent, counted and told to the listeners. -/
theorem createTable_sent_of_error {model : Model} (h : createTable model s = .error e s')
    (hr : ¬ s.Refused e s') :
    (s.Sent [] s' ↔ (s.workspace.describe model).1 = .error e) ∧
      ∀ m, (s.workspace.describe model).1 = .ok m →
        ∃ before i after stmts, m.table.indexes = before ++ i :: after ∧
          before.mapM (s.dialect.createIndex m.table) = .ok stmts ∧
          s.dialect.createIndex m.table i = .error e ∧ i.kind = .hash ∧
          s.Sent (s.dialect.createTable m.table :: stmts) s' := by
  rcases createTable_cases h with
    ⟨hfault, hsent⟩ | hrefused | ⟨m, before, i, after, stmts, hm, hsplit, hmade, hfault, hsent⟩
  · refine ⟨⟨fun _ => hfault, fun _ => hsent⟩, fun m hm => ?_⟩
    cases hfault.symm.trans hm
  · exact absurd hrefused hr
  · refine ⟨⟨fun hnothing => ?_, fun hundescribed => ?_⟩, fun m' hm' => ?_⟩
    · cases hsent.length_eq hnothing
    · cases hm.symm.trans hundescribed
    · obtain rfl := Except.ok.inj (hm.symm.trans hm')
      have hkind := (Dialect.createIndex_eq_error_iff.mp hfault).1
      exact ⟨before, i, after, stmts, hsplit, hmade, hfault, hkind, hsent⟩

def labelModel (indexes : List Index) : Model where
  id := 0
  typeName := "labels"
  initial := {}
  description :=
    .setting (.field { fieldName := "id", slot := ["id"], type := .scalar .int64 }) <|
    .setting (.field { fieldName := "name", slot := ["name"], type := .scalar .string }) <|
    indexes.foldr (fun i rest => .setting (.index i) rest) .done

/-- A plain index, and then a hash index over two columns. -/
def twiceIndexedModel : Model :=
  labelModel [⟨"by_name", .standard, ["name"]⟩, ⟨"by_both", .hash, ["id", "name"]⟩]

def connected (product version : String) : SessionState where
  workspace := {}
  database := { connection := { product, version } }

/-- Whether a computation fails, with an error and in a state as described. -/
def failsWith {α : Type} (P : Error → SessionState → Bool) :
    EStateM.Result Error SessionState α → Bool
  | .ok _ _ => false
  | .error e s => P e s

theorem exists_of_failsWith {α : Type} {P : Error → SessionState → Bool}
    {outcome : EStateM.Result Error SessionState α} (h : failsWith P outcome = true) :
    ∃ e s', outcome = .error e s' ∧ P e s' = true := by
  cases outcome with
  | ok a s' => cases h
  | error e s' => exact ⟨e, s', rfl, h⟩

/-- PostgreSQL has no hash index over two columns. The table and the index before are made. -/
theorem createTable_label_sent :
    ∃ s', createTable twiceIndexedModel (connected "PostgreSQL" "15.1") =
        .error (.unsupportedFeature "postgresql" .wideHashIndexes) s' ∧
      s'.database.connection.received.map (·.sql) =
        ["CREATE TABLE IF NOT EXISTS \"labels\" (\"id\" BIGINT NOT NULL, \"name\" VARCHAR NOT NULL)",
          "CREATE INDEX IF NOT EXISTS \"by_name\" ON \"labels\" (\"name\")"] ∧
      ¬ (connected "PostgreSQL" "15.1").Sent [] s' := by
  have hfails : failsWith
      (fun e s' => e = .unsupportedFeature "postgresql" .wideHashIndexes ∧
        s'.database.connection.received.map (·.sql) =
          ["CREATE TABLE IF NOT EXISTS \"labels\" (\"id\" BIGINT NOT NULL, \"name\" VARCHAR NOT NULL)",
            "CREATE INDEX IF NOT EXISTS \"by_name\" ON \"labels\" (\"name\")"])
      (createTable twiceIndexedModel (connected "PostgreSQL" "15.1")) = true := by decide +kernel
  have hdescribed : (Workspace.describe {} twiceIndexedModel).1.isOk = true := by decide
  obtain ⟨e, s', hrun, hstate⟩ := exists_of_failsWith hfails
  obtain ⟨rfl, hreceived⟩ := of_decide_eq_true hstate
  refine ⟨s', hrun, hreceived, ?_⟩
  rw [(createTable_sent_of_error hrun SessionState.not_refused_of_unsupportedFeature).1]
  intro hundescribed
  change (Workspace.describe {} twiceIndexedModel).1 = _ at hundescribed
  rw [hundescribed] at hdescribed
  cases hdescribed

/-- SQLite has no hash index at all. The table is made, counted as well, and then the index is
refused. -/
theorem createTable_sent_of_hash_index :
    (connected "SQLite" "3.45.1").database.connection.received = [] ∧
      (connected "SQLite" "3.45.1").workspace.statistics.total = 0 ∧
      ∃ s', createTable (labelModel [⟨"by_name", .hash, ["name"]⟩]) (connected "SQLite" "3.45.1") =
          .error (.unsupportedFeature "sqlite" .hashIndexes) s' ∧
        ¬ (connected "SQLite" "3.45.1").Refused (.unsupportedFeature "sqlite" .hashIndexes) s' ∧
        s'.database.connection.received.map (·.sql) =
          ["CREATE TABLE IF NOT EXISTS \"labels\" (\"id\" INTEGER NOT NULL, \"name\" TEXT NOT NULL)"] ∧
        s'.workspace.statistics.total = 1 := by
  have hfails : failsWith
      (fun e s' => e = .unsupportedFeature "sqlite" .hashIndexes ∧
        s'.database.connection.received.map (·.sql) =
          ["CREATE TABLE IF NOT EXISTS \"labels\" (\"id\" INTEGER NOT NULL, \"name\" TEXT NOT NULL)"] ∧
        s'.workspace.statistics.total = 1)
      (createTable (labelModel [⟨"by_name", .hash, ["name"]⟩]) (connected "SQLite" "3.45.1")) =
        true := by decide
  obtain ⟨e, s', hrun, hstate⟩ := exists_of_failsWith hfails
  obtain ⟨rfl, hreceived, htotal⟩ := of_decide_eq_true hstate
  exact ⟨rfl, rfl, s', hrun, SessionState.not_refused_of_unsupportedFeature, hreceived, htotal⟩

end Session

end RecordMapper
