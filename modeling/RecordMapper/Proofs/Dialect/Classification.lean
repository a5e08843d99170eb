import RecordMapper.Dialect.Definition
import RecordMapper.Proofs.Dialect.Spelling
import RecordMapper.Proofs.Query.Chain
import RecordMapper.Proofs.Statement.Classification

/-!
# Statements are of the kind of their task

Of whatever kind a dialect is asked to write a statement, that is how the statement is classified,
with any names, rows and conditions. An insert is told from a merge by clauses that may as well
stand in the names of the table, so there the names matter.
-/

set_option autoImplicit false

namespace RecordMapper

open Text Sql

/-- What a dialect writes statements for. -/
inductive Task
  | createTable (t : Table)
  | dropTable (t : Table)
  | createIndex (t : Table) (i : Index)
  | insert (t : Table) (values : List Value)
  | update (t : Table) (values : List Value)
  | delete (t : Table) (values : List Value)
  | merge (t : Table) (values : List Value)
  | query (q : Query) (request : Request)

def Dialect.statements (d : Dialect) : Task → Result (List Statement)
  | .createTable t => .ok [d.createTable t]
  | .dropTable t => .ok [d.dropTable t]
  | .createIndex t i => (d.createIndex t i).map ([·])
  | .insert t values => (d.insert t values).map ([·])
  | .update t values => (d.update t values).map ([·])
  | .delete t values => (d.delete t values).map ([·])
  | .merge t values => d.merge t values
  | .query q request => (q.answer request d).map ([·])

def Request.kind : Request → StatementKind
  | .update => .update
  | .delete => .delete
  | .select | .first | .count | .rows _ => .select

/-- The kinds of the statements of a task. In PostgreSQL a merge that has no column to update
inserts the row or does nothing. -/
def Task.kinds (p : Product) : Task → List StatementKind
  | .createTable _ | .dropTable _ | .createIndex _ _ => [.create]
  | .insert _ _ => [.insert]
  | .update _ _ => [.update]
  | .delete _ _ => [.delete]
  | .merge t _ => if p = .postgreSql ∧ t.otherColumns = [] then [.insert] else [.merge]
  | .query _ request => [request.kind]

/-- One of the names has the clause in it, in letters of any case. -/
def Mentions (names : List String) (clause : List Char) : Prop :=
  ∃ name ∈ names, clause <:+: capitals name
deriving Decidable

theorem Mentions.mono {names more : List String} {clause : List Char} (h : Mentions names clause)
    (hsub : names ⊆ more) : Mentions more clause := by
  obtain ⟨name, hname, hin⟩ := h
  exact ⟨name, hsub hname, hin⟩

/-- The merge is a single statement, and no name has a clause in it that makes an insert that does
not replace rows look like one that does. -/
def Task.IsPlain (p : Product) : Task → Prop
  | .insert t _ =>
    let names := t.path ++ t.names
    ¬ (Mentions names "ON DUPLICATE KEY UPDATE".toList ∨
      (Mentions names "ON CONFLICT".toList ∧ Mentions names "DO UPDATE".toList))
  | .merge t _ =>
    let names := t.path ++ t.names ++ t.primaryKey
    p ≠ .derby ∧ (p = .postgreSql → t.otherColumns = [] →
      ¬ Mentions names "ON DUPLICATE KEY UPDATE".toList ∧ ¬ Mentions names "DO UPDATE".toList)
  | _ => True

/-- The texts of inserts, apart from names and placeholders. -/
def insertTexts : List String := ["INSERT INTO ", ".", " (", ", ", ") VALUES (", ")"]

/-- Inserts can have the clause in their names only. -/
structure IsForeign (clause : List Char) : Prop extends IsClause clause where
  texts : ∀ s ∈ insertTexts, Text.Avoids clause (capitals s)

theorem isForeign_onDuplicateKey : IsForeign "ON DUPLICATE KEY UPDATE".toList where
  letter := ⟨'O', _, rfl, rfl⟩
  unmarked := by decide
  texts s hs := avoids_of_suffixes (by revert s; decide)

theorem isForeign_onConflict : IsForeign "ON CONFLICT".toList where
  letter := ⟨'O', _, rfl, rfl⟩
  unmarked := by decide
  texts s hs := avoids_of_suffixes (by revert s; decide)

theorem isForeign_doUpdate : IsForeign "DO UPDATE".toList where
  letter := ⟨'D', _, rfl, rfl⟩
  unmarked := by decide
  texts s hs := avoids_of_suffixes (by revert s; decide)

namespace Dialect
variable {d : Dialect} {t : Table} {values : List Value} {s : Statement}

section Names
variable {clause : List Char} (hd : d.Orderly) (hclause : IsForeign clause)
include hd hclause

theorem avoids_names {names : List String} (h : ¬ Mentions names clause) :
    (d.names names).Avoids clause := by
  refine avoids_separated (hclause.texts ", " (by decide)) fun item hitem => ?_
  obtain ⟨name, hname, rfl⟩ := List.mem_map.mp hitem
  exact avoids_text (avoids_quoted hclause.toIsClause hd.mark fun hin => h ⟨name, hname, hin⟩)

theorem avoids_tableName (h : ¬ Mentions t.path clause) :
    Text.Avoids clause (capitals (d.tableName t)) := by
  have hquote (name : String) (hname : name ∈ t.path) :
      Text.Avoids clause (capitals (d.quote name)) :=
    avoids_quoted hclause.toIsClause hd.mark fun hin => h ⟨name, hname, hin⟩
  unfold tableName
  unfold Table.path at hquote
  split
  · next schema hschema =>
    rw [hschema] at hquote
    rw [capitals_append, capitals_append]
    exact ((hquote schema List.mem_cons_self).append (hclause.texts "." (by decide))).append
      (hquote t.name (List.mem_cons_of_mem _ List.mem_cons_self))
  · exact hquote t.name (List.mem_append_right _ List.mem_cons_self)

theorem avoids_insertion {cells : List (Column × Value)}
    (hcells : ∀ cell ∈ cells, cell.1 ∈ t.columns) (h : ¬ Mentions (t.path ++ t.names) clause) :
    Sql.Avoids clause (Sql.text "INSERT INTO " ++ d.valuesClause t cells) := by
  have htext (s : String) (hs : s ∈ insertTexts) : (Sql.text s).Avoids clause :=
    avoids_text (hclause.texts s hs)
  have htable := avoids_tableName hd hclause (t := t)
    fun hmentions => h (hmentions.mono (List.subset_append_left _ _))
  have hcolumns : (d.names (cells.map (·.1.name))).Avoids clause := by
    refine avoids_names hd hclause fun hmentions => h (hmentions.mono fun name hname => ?_)
    obtain ⟨cell, hcell, rfl⟩ := List.mem_map.mp hname
    exact List.mem_append_right _ (List.mem_map_of_mem (hcells cell hcell))
  have hvalues : (Sql.commas (cells.map fun cell => Sql.param cell.2)).Avoids clause := by
    refine avoids_separated (hclause.texts ", " (by decide)) fun item hitem => ?_
    obtain ⟨cell, -, rfl⟩ := List.mem_map.mp hitem
    exact avoids_param cell.2
  have hname : (Sql.text (d.tableName t ++ " (")).Avoids clause := by
    refine avoids_text ?_
    rw [capitals_append]
    exact htable.append (hclause.texts " (" (by decide))
  exact (htext _ (by decide)).append
    ((((hname.append hcolumns).append (htext _ (by decide))).append hvalues).append
      (htext _ (by decide)))

end Names

theorem leads_text_append (lead rest : String) : (Sql.text (lead ++ rest)).Leads lead := by
  refine leads_text ?_
  rw [String.toList_append]
  exact List.prefix_append _ _

theorem leads_createTable (t : Table) : (d.createTable t).body.Leads "CREATE " := by
  refine Leads.append (Leads.append (Leads.append (leads_text ?_) _) _) _
  simp only [String.toList_append, List.append_assoc]
  exact List.prefix_append _ _

theorem leads_dropTable (t : Table) : (d.dropTable t).body.Leads "DROP " := by
  refine leads_text ?_
  simp only [String.toList_append, List.append_assoc]
  exact List.prefix_append _ _

theorem leads_createIndex {i : Index} (h : d.createIndex t i = .ok s) :
    s.body.Leads "CREATE " := by
  obtain ⟨kind, -, h⟩ := Result.bind_eq_ok_iff.mp h
  have hlead (rest : String) : (Sql.text ("CREATE " ++ rest)).Leads "CREATE " :=
    leads_text_append _ _
  simp only [String.append_assoc] at h
  split at h
  · obtain rfl := Except.ok.inj h
    exact (hlead _).append _
  · obtain rfl := Except.ok.inj h
    exact ((hlead _).append _).append _
  · obtain rfl := Except.ok.inj h
    exact ((hlead _).append _).append _

theorem leads_update (h : d.update t values = .ok s) : s.body.Leads "UPDATE " := by
  obtain ⟨_, -, h⟩ := Result.bind_eq_ok_iff.mp h
  obtain ⟨_, -, h⟩ := Result.bind_eq_ok_iff.mp h
  simp only at h
  split at h
  · cases h
  · obtain ⟨condition, -, h⟩ := Result.bind_eq_ok_iff.mp h
    obtain rfl := Except.ok.inj h
    rw [String.append_assoc]
    exact ((leads_text_append _ _).append _).append _

theorem leads_delete (h : d.delete t values = .ok s) : s.body.Leads "DELETE " := by
  obtain ⟨_, -, h⟩ := Result.bind_eq_ok_iff.mp h
  obtain ⟨_, -, h⟩ := Result.bind_eq_ok_iff.mp h
  obtain ⟨condition, -, h⟩ := Result.bind_eq_ok_iff.mp h
  obtain rfl := Except.ok.inj h
  exact (leads_text_append "DELETE " ("FROM " ++ d.tableName t)).append _

end Dialect

theorem Query.leads_writeSelect {q : Query} {projection : Projection} {d : Dialect} {s : Statement}
    (h : q.writeSelect projection d = .ok s) : s.body.Leads "SELECT " := by
  obtain ⟨joins, -, h⟩ := Result.bind_eq_ok_iff.mp h
  obtain ⟨filters, -, h⟩ := Result.bind_eq_ok_iff.mp h
  obtain ⟨page, -, h⟩ := Result.exists_of_ite_bind_eq_ok h
  obtain rfl := Except.ok.inj h
  have hselect := Dialect.leads_text_append "SELECT "
    (if q.isDistinct && !decide (projection = .count) then "DISTINCT " else "")
  exact ((((((hselect.append _).append _).append _).append _).append _).append _).append _

/-- The statement that answers a request begins with the word for it. -/
theorem Query.kind_of_answer {q : Query} {request : Request} {d : Dialect} {s : Statement}
    (h : q.answer request d = .ok s) : StatementKind.classify s.sql = request.kind := by
  have hwritten := (write_of_answer h).2
  have hselect {q : Query} {projection : Projection} (h : q.writeSelect projection d = .ok s) :
      StatementKind.classify s.sql = .select :=
    StatementKind.classify_of_mem_leads (by decide) (leads_writeSelect h _ 0)
  cases request with
  | select => exact hselect hwritten
  | first => exact hselect hwritten
  | count => exact hselect hwritten
  | rows columns =>
    obtain ⟨ps, -, hwritten⟩ := Result.bind_eq_ok_iff.mp hwritten
    exact hselect hwritten
  | update =>
    obtain ⟨filters, -, hwritten⟩ := Result.bind_eq_ok_iff.mp hwritten
    obtain rfl := Except.ok.inj hwritten
    have hlead := Dialect.leads_text_append "UPDATE " (d.tableName q.source.table ++ " SET ")
    rw [← String.append_assoc] at hlead
    exact StatementKind.classify_of_mem_leads (by decide) ((hlead.append _).append _ _ 0)
  | delete =>
    obtain ⟨filters, -, hwritten⟩ := Result.bind_eq_ok_iff.mp hwritten
    obtain rfl := Except.ok.inj hwritten
    have hlead := Dialect.leads_text_append "DELETE " ("FROM " ++ d.tableName q.source.table)
    exact StatementKind.classify_of_mem_leads (by decide) (hlead.append _ _ 0)

namespace Dialect
variable {d : Dialect} {t : Table}

theorem kind_insertion (hd : d.Orderly) {cells : List (Column × Value)}
    (hcells : ∀ cell ∈ cells, cell.1 ∈ t.columns)
    (h : ¬ (Mentions (t.path ++ t.names) "ON DUPLICATE KEY UPDATE".toList ∨
      (Mentions (t.path ++ t.names) "ON CONFLICT".toList ∧
        Mentions (t.path ++ t.names) "DO UPDATE".toList))) :
    StatementKind.classify (d.statement (Sql.text "INSERT INTO " ++ d.valuesClause t cells)).sql =
      .insert := by
  have hnames {clause : List Char} (hclause : IsForeign clause)
      (hin : clause <:+: capitals
        (d.statement (Sql.text "INSERT INTO " ++ d.valuesClause t cells)).sql) :
      Mentions (t.path ++ t.names) clause := by
    refine not_not.mp fun hnot => ?_
    exact ((avoids_insertion hd hclause hcells hnot).written hclause.toIsClause _ 0).not_occurs
      hclause.ne_nil hin
  have hlead : Sql.Leads "INSERT INTO " (Sql.text "INSERT INTO " ++ d.valuesClause t cells) :=
    (leads_text List.prefix_rfl).append _
  refine (StatementKind.classify_of_insert (hlead _ 0)).trans (if_neg ?_)
  rintro (hduplicate | ⟨hconflict, hupdate⟩)
  · exact h (.inl (hnames isForeign_onDuplicateKey hduplicate))
  · exact h (.inr ⟨hnames isForeign_onConflict hconflict, hnames isForeign_doUpdate hupdate⟩)

theorem leads_insertAll (t : Table) (values : List Value) :
    (d.insertAll t values).Leads "INSERT INTO " :=
  (leads_text List.prefix_rfl).append _

/-- A statement that replaces rows by one of its own clauses. -/
theorem kind_replacement {body : Sql} (hlead : body.Leads "INSERT INTO ")
    (h : StatementKind.Replaces (capitals (d.statement body).sql)) :
    StatementKind.classify (d.statement body).sql = .merge :=
  (StatementKind.classify_of_insert (hlead _ 0)).trans (if_pos h)

theorem kind_onDuplicateKey (values : List Value) :
    StatementKind.classify (d.statement (d.insertAll t values ++
      Sql.text " ON DUPLICATE KEY UPDATE " ++ d.duplicateUpdates t)).sql = .merge := by
  refine kind_replacement (((leads_insertAll t values).append _).append _) (.inl ?_)
  refine infix_written (s := " ON DUPLICATE KEY UPDATE ") ?_ (by decide) _ 0
  exact List.mem_append_left _ (List.mem_append_right _ List.mem_cons_self)

theorem kind_doUpdate (h : t.otherColumns ≠ []) (values : List Value) :
    StatementKind.classify (d.statement (d.insertAll t values ++ Sql.text " ON CONFLICT (" ++
      d.names t.primaryKey ++ Sql.text ")" ++ d.conflictAction t)).sql = .merge := by
  have hupdate : Fragment.text " DO UPDATE SET " ∈ d.conflictAction t := by
    unfold conflictAction
    rw [if_neg]
    · exact List.mem_append_left _ List.mem_cons_self
    · rw [List.isEmpty_iff, List.map_eq_nil_iff]
      exact h
  refine kind_replacement (((((leads_insertAll t values).append _).append _).append _).append _)
    (.inr ⟨?_, ?_⟩)
  · refine infix_written (s := " ON CONFLICT (") ?_ (by decide) _ 0
    refine List.mem_append_left _ (List.mem_append_left _ (List.mem_append_left _ ?_))
    exact List.mem_append_right _ List.mem_cons_self
  · exact infix_written (s := " DO UPDATE SET ") (List.mem_append_right _ hupdate) (by decide) _ 0

theorem kind_doNothing (hd : d.Orderly) (hothers : t.otherColumns = []) (values : List Value)
    (hduplicate : ¬ Mentions (t.path ++ t.names ++ t.primaryKey)
      "ON DUPLICATE KEY UPDATE".toList)
    (hupdate : ¬ Mentions (t.path ++ t.names ++ t.primaryKey) "DO UPDATE".toList) :
    StatementKind.classify (d.statement (d.insertAll t values ++ Sql.text " ON CONFLICT (" ++
      d.names t.primaryKey ++ Sql.text ")" ++ d.conflictAction t)).sql = .insert := by
  have haction : d.conflictAction t = Sql.text " DO NOTHING" := by
    unfold conflictAction
    rw [hothers]
    rfl
  have hnot {clause : List Char} (hclause : IsForeign clause)
      (htexts : ∀ s ∈ [" ON CONFLICT (", " DO NOTHING"], Text.Avoids clause (capitals s))
      (h : ¬ Mentions (t.path ++ t.names ++ t.primaryKey) clause) :
      ¬ clause <:+: capitals (d.statement (d.insertAll t values ++ Sql.text " ON CONFLICT (" ++
        d.names t.primaryKey ++ Sql.text ")" ++ d.conflictAction t)).sql := by
    have hinsertion : (d.insertAll t values).Avoids clause :=
      avoids_insertion hd hclause (fun cell hcell => (List.of_mem_zip hcell).1)
        fun hmentions => h (hmentions.mono (List.subset_append_left _ _))
    have hkey : (d.names t.primaryKey).Avoids clause :=
      avoids_names hd hclause fun hmentions => h (hmentions.mono (List.subset_append_right _ _))
    have hclosed : (Sql.text ")").Avoids clause := avoids_text (hclause.texts ")" (by decide))
    have hbody := ((((hinsertion.append (avoids_text (htexts " ON CONFLICT (" (by decide)))).append
      hkey).append hclosed).append (avoids_text (htexts " DO NOTHING" (by decide))))
    rw [haction]
    exact (hbody.written hclause.toIsClause _ 0).not_occurs hclause.ne_nil
  have hlead := ((((leads_insertAll (d := d) t values).append (Sql.text " ON CONFLICT (")).append
    (d.names t.primaryKey)).append (Sql.text ")")).append (d.conflictAction t)
  refine (StatementKind.classify_of_insert (hlead _ 0)).trans (if_neg ?_)
  rintro (hin | ⟨-, hin⟩)
  · refine hnot isForeign_onDuplicateKey (fun s hs => avoids_of_suffixes ?_) hduplicate hin
    revert s
    decide
  · refine hnot isForeign_doUpdate (fun s hs => avoids_of_suffixes ?_) hupdate hin
    revert s
    decide

/-- The form of the merge decides how the statement is classified. -/
theorem kinds_merge {p : Product} {version : ProductVersion} {values : List Value}
    {stmts : List Statement} (h : (ofProduct p version).merge t values = .ok stmts)
    (hplain : (Task.merge t values).IsPlain p) :
    stmts.map (fun s => StatementKind.classify s.sql) = (Task.merge t values).kinds p := by
  obtain ⟨hderby, hnothing⟩ := hplain
  unfold merge at h
  cases p with
  | generic =>
    obtain ⟨_, -, h⟩ := Result.bind_eq_ok_iff.mp h
    cases h
  | h2 =>
    obtain ⟨_, -, h⟩ := Result.bind_eq_ok_iff.mp h
    obtain ⟨_, -, h⟩ := Result.bind_eq_ok_iff.mp h
    obtain rfl := Except.ok.inj h
    have hlead := leads_text_append "MERGE "
      ("INTO " ++ tableName (ofProduct .h2 version) t ++ " (")
    exact congrArg ([·]) (StatementKind.classify_of_mem_leads (by decide)
      ((((((hlead.append _).append _).append _).append _).append _).append _ _ 0))
  | mySql =>
    obtain ⟨_, -, h⟩ := Result.bind_eq_ok_iff.mp h
    obtain ⟨_, -, h⟩ := Result.bind_eq_ok_iff.mp h
    obtain rfl := Except.ok.inj h
    exact congrArg ([·]) (kind_onDuplicateKey values)
  | postgreSql =>
    obtain ⟨_, -, h⟩ := Result.bind_eq_ok_iff.mp h
    obtain ⟨_, -, h⟩ := Result.bind_eq_ok_iff.mp h
    obtain rfl := Except.ok.inj h
    rw [Task.kinds]
    split
    · next hnone =>
      obtain ⟨hduplicate, hupdate⟩ := hnothing rfl hnone.2
      exact congrArg ([·]) (kind_doNothing (orderly_ofProduct .postgreSql version) hnone.2 values
        hduplicate hupdate)
    · next hsome =>
      exact congrArg ([·]) (kind_doUpdate (fun hnone => hsome ⟨rfl, hnone⟩) values)
  | sqlite =>
    obtain ⟨_, -, h⟩ := Result.bind_eq_ok_iff.mp h
    obtain ⟨_, -, h⟩ := Result.bind_eq_ok_iff.mp h
    obtain rfl := Except.ok.inj h
    have hlead : (Sql.text "INSERT OR REPLACE INTO ").Leads "INSERT OR REPLACE " :=
      leads_text_append "INSERT OR REPLACE " "INTO "
    exact congrArg ([·]) (StatementKind.classify_of_insert_or_replace (hlead.append _ _ 0))
  | derby => exact absurd rfl hderby

/-- Every statement is of the kind of the task it is written for. -/
theorem kinds_of_statements {p : Product} {version : ProductVersion} {task : Task}
    {stmts : List Statement} (h : (ofProduct p version).statements task = .ok stmts)
    (hplain : task.IsPlain p) :
    stmts.map (fun s => StatementKind.classify s.sql) = task.kinds p := by
  cases task with
  | createTable t =>
    obtain rfl := Except.ok.inj h
    exact congrArg ([·]) (StatementKind.classify_of_mem_leads (by decide)
      (leads_createTable t _ 0))
  | dropTable t =>
    obtain rfl := Except.ok.inj h
    exact congrArg ([·]) (StatementKind.classify_of_mem_leads (by decide) (leads_dropTable t _ 0))
  | createIndex t i =>
    obtain ⟨s, hs, rfl⟩ := Result.map_eq_ok_iff.mp h
    exact congrArg ([·]) (StatementKind.classify_of_mem_leads (by decide)
      (leads_createIndex hs _ 0))
  | insert t values =>
    obtain ⟨s, hs, rfl⟩ := Result.map_eq_ok_iff.mp h
    obtain ⟨_, -, hs⟩ := Result.bind_eq_ok_iff.mp hs
    obtain rfl := Except.ok.inj hs
    refine congrArg ([·]) (kind_insertion (orderly_ofProduct p version) ?_ hplain)
    intro cell hcell
    exact (List.of_mem_zip (List.mem_of_mem_filter hcell)).1
  | update t values =>
    obtain ⟨s, hs, rfl⟩ := Result.map_eq_ok_iff.mp h
    exact congrArg ([·]) (StatementKind.classify_of_mem_leads (by decide) (leads_update hs _ 0))
  | delete t values =>
    obtain ⟨s, hs, rfl⟩ := Result.map_eq_ok_iff.mp h
    exact congrArg ([·]) (StatementKind.classify_of_mem_leads (by decide) (leads_delete hs _ 0))
  | merge t values => exact kinds_merge h hplain
  | query q request =>
    obtain ⟨s, hs, rfl⟩ := Result.map_eq_ok_iff.mp h
    exact congrArg ([·]) (Query.kind_of_answer hs)

/-- A table with words of clauses in its names. -/
def conflictTable : Table where
  name := "on conflict"
  columns := [{ name := "do nothing", fieldName := "note", sqlType := .varchar }]

theorem kinds_of_insert_conflict :
    (Task.insert conflictTable [.text "x"]).IsPlain .mySql ∧
      ∃ stmts, (ofProduct .mySql .zero).statements (.insert conflictTable [.text "x"]) = .ok stmts ∧
        stmts.map (fun s => StatementKind.classify s.sql) = [.insert] := by
  have hplain : (Task.insert conflictTable [.text "x"]).IsPlain .mySql := by
    change ¬ (Mentions _ _ ∨ (Mentions _ _ ∧ Mentions _ _))
    decide
  have hwritten : (ofProduct .mySql .zero).statements (.insert conflictTable [.text "x"]) = .ok _ :=
    rfl
  exact ⟨hplain, _, hwritten, kinds_of_statements hwritten hplain⟩

/-- A table that has key columns only. -/
def membershipTable : Table where
  name := "memberships"
  columns := [
    { name := "club_id", fieldName := "clubId", sqlType := .bigInt, primaryKey := true },
    { name := "person_id", fieldName := "personId", sqlType := .bigInt, primaryKey := true }]
  primaryKey := ["club_id", "person_id"]

/-- The only statement of a merge does not count as one. -/
theorem merge_membership_is_insert :
    ∃ s, (ofProduct .postgreSql .zero).merge membershipTable [.int64 1, .int64 2] = .ok [s] ∧
      s.sql = "INSERT INTO \"memberships\" (\"club_id\", \"person_id\") VALUES ($1, $2)" ++
        " ON CONFLICT (\"club_id\", \"person_id\") DO NOTHING" ∧
      StatementKind.classify s.sql = .insert := by
  refine ⟨_, rfl, ?_, ?_⟩ <;> decide +kernel

end Dialect

end RecordMapper
