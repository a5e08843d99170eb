import RecordMapper.Dialect.Definition
import RecordMapper.Dialect.Manipulation
import RecordMapper.Dialect.Products
import RecordMapper.Proofs.Result
import RecordMapper.Proofs.Statement.Tidy

/-!
# The statements of dialects are tidy

What a dialect itself contributes to a statement is balanced in every product, and names are quoted
whatever they are. Hence all statements that define tables and write rows are tidy.
-/

set_option autoImplicit false

namespace RecordMapper

open SqlText

theorem SqlType.balanced_name (type : SqlType) : Balanced type.name := by
  cases type <;> exact .literal rfl

namespace Dialect

/-- The dialect's own texts are balanced, and identifiers are enclosed in quotes. -/
structure Orderly (d : Dialect) : Prop where
  mark : isQuote d.identifierMark = true
  identity : ∀ clause ∈ d.identityClause, Balanced clause
  typeName : ∀ c, Balanced (d.typeName c)
  everything : ∀ n, d.paging = .limitFirst n → Balanced n

theorem balanced_standardType (c : Column) : Balanced (standardType c) := by
  unfold standardType
  split
  · next length _ _ =>
    exact (Balanced.append (.literal rfl) (.number length)).append (.literal rfl)
  · next precision scale _ _ _ =>
    refine Balanced.append ?_ (.literal rfl)
    refine Balanced.append ?_ (.number scale)
    exact (Balanced.append (.literal rfl) (.number precision)).append (.literal rfl)
  · next precision _ _ _ =>
    exact (Balanced.append (.literal rfl) (.number precision)).append (.literal rfl)
  · exact SqlType.balanced_name _

theorem balanced_h2Type (c : Column) : Balanced (h2Type c) := by
  unfold h2Type
  split
  · exact .literal rfl
  · exact balanced_standardType c

theorem balanced_mySqlType (c : Column) : Balanced (mySqlType c) := by
  unfold mySqlType
  split
  iterate 4 exact .literal rfl
  exact balanced_standardType c

theorem balanced_postgreSqlType (c : Column) : Balanced (postgreSqlType c) := by
  unfold postgreSqlType
  split
  iterate 8 exact .literal rfl
  exact balanced_standardType c

theorem balanced_sqliteType (c : Column) : Balanced (sqliteType c) := by
  unfold sqliteType
  split <;> exact .literal rfl

theorem balanced_derbyType (c : Column) : Balanced (derbyType c) := by
  unfold derbyType
  split
  iterate 3 exact .literal rfl
  exact balanced_standardType c

theorem orderly_ofProduct (p : Product) (version : ProductVersion) :
    (ofProduct p version).Orderly := by
  cases p with
  | generic =>
    refine ⟨rfl, ?_, balanced_standardType, nofun⟩
    rintro _ ⟨⟩
    exact .literal rfl
  | h2 =>
    refine ⟨rfl, ?_, balanced_h2Type, nofun⟩
    rintro _ ⟨⟩
    exact .literal rfl
  | mySql =>
    refine ⟨rfl, ?_, balanced_mySqlType, ?_⟩
    · rintro _ ⟨⟩
      exact .literal rfl
    · rintro _ ⟨⟩
      exact .literal rfl
  | postgreSql => exact ⟨rfl, nofun, balanced_postgreSqlType, nofun⟩
  | sqlite =>
    refine ⟨rfl, nofun, balanced_sqliteType, ?_⟩
    rintro _ ⟨⟩
    exact .literal rfl
  | derby =>
    refine ⟨rfl, ?_, balanced_derbyType, ?_⟩
    · rintro _ ⟨⟩
      exact .literal rfl
    · intro n h
      simp only [ofProduct, derby] at h
      split at h <;> cases h

section Statements
variable {d : Dialect} (hd : d.Orderly)
include hd

theorem Orderly.quote (name : String) : Word (d.quote name) := .quoted hd.mark name

theorem Orderly.tableName (t : Table) : Word (d.tableName t) := by
  unfold Dialect.tableName
  split
  · next schema _ =>
    exact ((hd.quote schema).append (.literal rfl)).append (hd.quote t.name).balanced
  · exact hd.quote t.name

theorem Orderly.names (names : List String) : (d.names names).Detached := by
  refine .commas ?_
  intro item hitem
  obtain ⟨name, -, rfl⟩ := List.mem_map.mp hitem
  exact .text (hd.quote name)

theorem Orderly.page {limit offset : Option Nat} {sql : Sql} (h : d.page limit offset = .ok sql) :
    sql.Detached := by
  have hlimit (n : Nat) : (Sql.text (" LIMIT " ++ Numeral.ofNat n)).Detached :=
    .text (Word.append (.literal rfl) (.number n))
  have hoffset (n : Nat) : (Sql.text (" OFFSET " ++ Numeral.ofNat n)).Detached :=
    .text (Word.append (.literal rfl) (.number n))
  unfold Dialect.page at h
  split at h
  · obtain rfl := Except.ok.inj h
    exact .nil
  · split at h
    · obtain rfl := Except.ok.inj h
      refine .append ?_ ?_
      · cases limit with
        | none => exact .nil
        | some n => exact hlimit n
      · cases offset with
        | none => exact .nil
        | some n => exact hoffset n
    · next everything hpaging =>
      have heverything := hd.everything everything hpaging
      split at h
      · obtain rfl := Except.ok.inj h
        refine (hlimit _).append ?_
        cases offset with
        | none => exact .nil
        | some n => exact hoffset n
      · obtain rfl := Except.ok.inj h
        refine (Sql.Detached.text (Word.append (.literal rfl) heverything)).append ?_
        cases offset with
        | none => exact .nil
        | some n => exact hoffset n
    · obtain rfl := Except.ok.inj h
      refine .append (.text ?_) ?_
      · exact (Word.append (.literal rfl) (.number _)).append (.literal rfl)
      · cases limit with
        | none => exact .nil
        | some n =>
          exact .text ((Word.append (.literal rfl) (.number n)).append (.literal rfl))
    · cases h

theorem Orderly.columnDefinition (t : Table) (c : Column) : Word (d.columnDefinition t c) := by
  have hname := hd.quote c.name
  unfold Dialect.columnDefinition
  split
  · exact hname.append (.literal rfl)
  · refine Word.append ?_ (.ite (.literal rfl) (.literal rfl))
    refine Word.append ?_ ?_
    · exact (hname.append (.literal rfl)).append (hd.typeName c)
    · split
      · next clause _ hclause =>
        exact Balanced.append (.literal rfl) (hd.identity clause hclause)
      · exact .literal rfl

theorem Orderly.createTable (t : Table) : (d.createTable t).body.Tidy := by
  refine Sql.Detached.tidy (((Sql.Detached.append (.text ?_) (.commas ?_)).append ?_).append
    (.text (.literal rfl)))
  · have hcreate :
        Word ("CREATE " ++ (if t.memoryTable && d.memoryTables then "MEMORY " else "")) :=
      Word.append (.literal rfl) (.ite (.literal rfl) (.literal rfl))
    have htable := (hcreate.append (b := "TABLE ") (.literal rfl)).append
      (b := if d.ifNotExists then "IF NOT EXISTS " else "") (.ite (.literal rfl) (.literal rfl))
    exact (htable.append (hd.tableName t).balanced).append (.literal rfl)
  · intro item hitem
    obtain ⟨c, -, rfl⟩ := List.mem_map.mp hitem
    exact .text (hd.columnDefinition t c)
  · split
    · exact (Sql.Detached.append (.text (.literal rfl)) (hd.names _)).append (.text (.literal rfl))
    · exact .nil

theorem Orderly.dropTable (t : Table) : (d.dropTable t).body.Tidy := by
  have hdrop : Word ("DROP TABLE " ++ (if d.ifNotExists then "IF EXISTS " else "")) :=
    Word.append (.literal rfl) (.ite (.literal rfl) (.literal rfl))
  exact Sql.tidy_text (hdrop.append (hd.tableName t).balanced).balanced

theorem Orderly.createIndex {t : Table} {i : Index} {s : Statement}
    (h : d.createIndex t i = .ok s) : s.body.Tidy := by
  obtain ⟨kind, -, h⟩ := Result.bind_eq_ok_iff.mp h
  have hunique : Balanced (if kind.isUnique then "UNIQUE " else "") :=
    .ite (.literal rfl) (.literal rfl)
  have hcreate := Word.append (a := "CREATE ") (.literal rfl) hunique
  have hplace := (((hd.quote i.name).append (b := " ON ") (.literal rfl)).append
    (hd.tableName t).balanced).balanced
  have hcolumns : (Sql.text " (" ++ d.names i.columns ++ Sql.text ")").Detached :=
    .enclosed (.literal rfl) (hd.names i.columns).tidy (.literal rfl)
  have husing : (Sql.text (if kind.isHash then " USING HASH" else "")).Detached := by
    split
    · exact .text (.literal rfl)
    · exact ⟨Sql.tidy_text (.literal rfl), rfl⟩
  cases hform : d.indexForm with
  | leading =>
    rw [hform] at h
    obtain rfl := Except.ok.inj h
    refine Sql.Detached.tidy (Sql.Detached.append (.text ?_) hcolumns)
    have hhash := (hcreate.append (b := if kind.isHash then "HASH " else "")
      (.ite (.literal rfl) (.literal rfl))).append (b := "INDEX ") (.literal rfl)
    exact (hhash.append (.ite (.literal rfl) (.literal rfl))).append hplace
  | trailing =>
    rw [hform] at h
    obtain rfl := Except.ok.inj h
    refine Sql.Detached.tidy ((Sql.Detached.append (.text ?_) hcolumns).append husing)
    exact (hcreate.append (.literal rfl)).append hplace
  | method =>
    rw [hform] at h
    obtain rfl := Except.ok.inj h
    refine Sql.Detached.tidy ((Sql.Detached.append (.text ?_) husing).append hcolumns)
    exact (hcreate.append (.literal rfl)).append hplace

theorem Orderly.assignment (name : String) (v : Value) : (d.assignment name v).Detached :=
  .append (.text ((hd.quote name).append (.literal rfl))) (.param v)

theorem Orderly.valuesClause (t : Table) (cells : List (Column × Value)) :
    (d.valuesClause t cells).Detached := by
  have hvalues : (Sql.commas (cells.map fun cell => Sql.param cell.2)).Detached := by
    refine .commas ?_
    intro item hitem
    obtain ⟨cell, -, rfl⟩ := List.mem_map.mp hitem
    exact .param cell.2
  refine Sql.Detached.append (Sql.Detached.append (Sql.Detached.append ?_ ?_) hvalues) ?_
  · exact .append (.text ((hd.tableName t).append (.literal rfl))) (hd.names _)
  · exact .text (.literal rfl)
  · exact .text (.literal rfl)

theorem Orderly.keyCondition {t : Table} {values : List Value} {sql : Sql}
    (h : d.keyCondition t values = .ok sql) : sql.Detached := by
  obtain ⟨tests, htests, h⟩ := Result.bind_eq_ok_iff.mp h
  obtain rfl := Except.ok.inj h
  refine .append (.text (.literal rfl)) (.separated (.literal rfl) ?_)
  intro item hitem
  obtain ⟨key, -, hkey⟩ := Result.exists_of_mapM_eq_ok htests hitem
  split at hkey
  · obtain rfl := Except.ok.inj hkey
    exact hd.assignment key _
  · cases hkey

theorem Orderly.insert {t : Table} {values : List Value} {s : Statement}
    (h : d.insert t values = .ok s) : s.body.Tidy := by
  obtain ⟨_, -, h⟩ := Result.bind_eq_ok_iff.mp h
  obtain rfl := Except.ok.inj h
  exact (Sql.Detached.append (.text (.literal rfl)) (hd.valuesClause t _)).tidy

theorem Orderly.insertAll (t : Table) (values : List Value) : (d.insertAll t values).Detached :=
  .append (.text (.literal rfl)) (hd.valuesClause t _)

theorem Orderly.update {t : Table} {values : List Value} {s : Statement}
    (h : d.update t values = .ok s) : s.body.Tidy := by
  obtain ⟨_, -, h⟩ := Result.bind_eq_ok_iff.mp h
  obtain ⟨_, -, h⟩ := Result.bind_eq_ok_iff.mp h
  simp only at h
  split at h
  · cases h
  · obtain ⟨condition, hcondition, h⟩ := Result.bind_eq_ok_iff.mp h
    obtain rfl := Except.ok.inj h
    refine Sql.Detached.tidy (Sql.Detached.append (Sql.Detached.append (.text ?_) (.commas ?_))
      (hd.keyCondition hcondition))
    · exact (Word.append (.literal rfl) (hd.tableName t).balanced).append (.literal rfl)
    · intro item hitem
      obtain ⟨⟨c, v⟩, -, rfl⟩ := List.mem_map.mp hitem
      exact hd.assignment c.name v

theorem Orderly.delete {t : Table} {values : List Value} {s : Statement}
    (h : d.delete t values = .ok s) : s.body.Tidy := by
  obtain ⟨_, -, h⟩ := Result.bind_eq_ok_iff.mp h
  obtain ⟨_, -, h⟩ := Result.bind_eq_ok_iff.mp h
  obtain ⟨condition, hcondition, h⟩ := Result.bind_eq_ok_iff.mp h
  obtain rfl := Except.ok.inj h
  refine Sql.Detached.tidy (Sql.Detached.append (.text ?_) (hd.keyCondition hcondition))
  exact Word.append (.literal rfl) (hd.tableName t).balanced

theorem Orderly.duplicateUpdates (t : Table) : (d.duplicateUpdates t).Detached := by
  unfold Dialect.duplicateUpdates
  simp only
  split
  · have hkey := hd.quote (t.primaryKey.headD "")
    exact .text ((hkey.append (.literal rfl)).append hkey.balanced)
  · refine .commas ?_
    intro item hitem
    obtain ⟨c, -, rfl⟩ := List.mem_map.mp hitem
    have hname := hd.quote c.name
    exact .text (((hname.append (.literal rfl)).append hname.balanced).append (.literal rfl))

theorem Orderly.conflictAction (t : Table) : (d.conflictAction t).Detached := by
  unfold Dialect.conflictAction
  simp only
  split
  · exact .text (.literal rfl)
  · refine .append (.text (.literal rfl)) (.commas ?_)
    intro item hitem
    obtain ⟨c, -, rfl⟩ := List.mem_map.mp hitem
    have hname := hd.quote c.name
    exact .text ((hname.append (.literal rfl)).append hname.balanced)

theorem Orderly.merge {t : Table} {values : List Value} {statements : List Statement}
    (h : d.merge t values = .ok statements) : ∀ s ∈ statements, s.body.Tidy := by
  have hall := hd.insertAll t values
  have hsingle {body : Sql} (hbody : body.Tidy)
      (h : (t.checkArity values >>= fun _ => t.requirePrimaryKey "merge" >>= fun _ =>
        pure [d.statement body]) = .ok statements) : ∀ s ∈ statements, s.body.Tidy := by
    obtain ⟨_, -, h⟩ := Result.bind_eq_ok_iff.mp h
    obtain ⟨_, -, h⟩ := Result.bind_eq_ok_iff.mp h
    obtain rfl := Except.ok.inj h
    exact List.forall_mem_singleton.mpr hbody
  unfold Dialect.merge at h
  cases hform : d.mergeForm with
  | unsupported =>
    simp only [hform, ↓reduceIte] at h
    obtain ⟨_, -, h⟩ := Result.bind_eq_ok_iff.mp h
    cases h
  | keyed =>
    simp only [hform, reduceCtorEq, ↓reduceIte] at h
    have hvalues : (Sql.commas (values.map Sql.param)).Detached := by
      refine .commas ?_
      intro item hitem
      obtain ⟨v, -, rfl⟩ := List.mem_map.mp hitem
      exact .param v
    have htable := (Word.append (a := "MERGE INTO ") (.literal rfl)
      (hd.tableName t).balanced).append (b := " (") (.literal rfl)
    have hnames := (Sql.Detached.text htable).append (hd.names (t.columns.map (·.name)))
    have hkey := (hnames.append (.text (s := ") KEY (") (.literal rfl))).append
      (hd.names t.primaryKey)
    have hbegun := (hkey.append (.text (s := ") VALUES (") (.literal rfl))).append hvalues
    exact hsingle (hbegun.append (.text (.literal rfl))).tidy h
  | onDuplicateKey =>
    simp only [hform, reduceCtorEq, ↓reduceIte] at h
    have hbegun := hall.append (.text (s := " ON DUPLICATE KEY UPDATE ") (.literal rfl))
    exact hsingle (hbegun.append (hd.duplicateUpdates t)).tidy h
  | onConflict =>
    simp only [hform, reduceCtorEq, ↓reduceIte] at h
    have hkey := (hall.append (.text (s := " ON CONFLICT (") (.literal rfl))).append
      (hd.names t.primaryKey)
    have hbegun := hkey.append (.text (s := ")") (.literal rfl))
    exact hsingle (hbegun.append (hd.conflictAction t)).tidy h
  | orReplace =>
    simp only [hform, reduceCtorEq, ↓reduceIte] at h
    have hreplace := Sql.Detached.text (s := "INSERT OR REPLACE INTO ") (.literal rfl)
    exact hsingle (hreplace.append (hd.valuesClause t _)).tidy h
  | deleteInsert =>
    simp only [hform, reduceCtorEq, ↓reduceIte] at h
    obtain ⟨_, -, h⟩ := Result.bind_eq_ok_iff.mp h
    obtain ⟨_, -, h⟩ := Result.bind_eq_ok_iff.mp h
    obtain ⟨deletion, hdeletion, h⟩ := Result.bind_eq_ok_iff.mp h
    obtain rfl := Except.ok.inj h
    refine List.forall_mem_cons.mpr ⟨hd.delete hdeletion, ?_⟩
    exact List.forall_mem_singleton.mpr hall.tidy

end Statements

end Dialect

end RecordMapper
