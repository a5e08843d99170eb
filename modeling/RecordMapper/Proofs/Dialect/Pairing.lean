import RecordMapper.Proofs.Dialect.Reading

/-!
# Statements pair columns with their own values

The statements that a dialect writes for a row of a sealed table are read back from their text and
parameters. Each says of every column it names what the row holds in that column: the row that is
inserted, the assignments of an update, the key by which a row is found, and what a merge does when
the row is there already.
-/

set_option autoImplicit false

namespace RecordMapper

open Sql Token

namespace Table

/-- The columns that are kept, each with its value. -/
def cells (t : Table) (values : List Value) (keep : Column → Value → Bool) : NamedValues :=
  ((t.columns.zip values).filter fun cell => keep cell.1 cell.2).map fun cell =>
    (cell.1.name, cell.2)

/-- The columns of the key in the order of the key, each with its value in the row. -/
structure IsKeyOf (t : Table) (values : List Value) (key : NamedValues) : Prop where
  names : key.map (·.1) = t.primaryKey
  values : ∀ cell ∈ key, cell ∈ t.names.zip values

/-- The values that the database is left to generate are not written: null or zero in a generated
column. -/
def insertedCells (t : Table) (values : List Value) : NamedValues :=
  t.cells values fun c v => ¬ (c.autoIncrement = true ∧ (v = .null ∨ v.integer? = some 0))

def otherCells (t : Table) (values : List Value) : NamedValues :=
  t.cells values fun c _ => c.name ∉ t.primaryKey

/-- What the statements of a merge say. -/
def merged (t : Table) (p : Product) (values : List Value) (key : NamedValues) :
    List Manipulation :=
  let row := t.names.zip values
  match p with
  | .generic => []
  | .h2 => [.insert { table := t.path, row, key := t.primaryKey, taken := .replaced }]
  | .mySql => [.insert { table := t.path, row, taken := .updated t.duplicateAssignments }]
  | .postgreSql =>
    [.insert { table := t.path, row, key := t.primaryKey, taken := .updated t.insertedAssignments }]
  | .sqlite => [.insert { table := t.path, row, taken := .replaced }]
  | .derby => [.delete t.path key, .insert { table := t.path, row }]

theorem names_otherCells {t : Table} {values : List Value}
    (hlength : values.length = t.columns.length) :
    (t.otherCells values).map (·.1) = t.otherNames := by
  have hcolumns : (t.columns.zip values).map (·.1) = t.columns :=
    List.map_fst_zip (Nat.le_of_eq hlength.symm)
  have hnames : t.names = (t.columns.zip values).map (·.1.name) :=
    calc t.names = ((t.columns.zip values).map (·.1)).map (·.name) := by rw [hcolumns, names]
      _ = _ := List.map_map
  rw [otherNames, hnames, List.filter_map, otherCells, cells, List.map_map]
  rfl

end Table

namespace Dialect

/-- The test that a row has the value of a key column. -/
def keyTest (d : Dialect) (t : Table) (values : List Value) (name : String) : Result Sql :=
  ((t.columnIndex? name).bind (values[·]?)).elim
    (.error (.unsupportedModel t.name (.keyMissing name))) fun v => .ok (d.assignment name v)

theorem keyCondition_eq (d : Dialect) (t : Table) (values : List Value) :
    d.keyCondition t values =
      (t.primaryKey.mapM (d.keyTest t values)).map fun tests =>
        Sql.text " WHERE " ++ Sql.separated " AND " tests := by
  unfold keyCondition
  congr 2
  funext name
  rw [keyTest]
  cases (t.columnIndex? name).bind (values[·]?) <;> rfl

end Dialect

namespace Mapping.Consistent
variable {m : Mapping} (h : m.Consistent)
include h

theorem exists_index_of_mem_key {name : String} (hname : name ∈ m.table.primaryKey) :
    ∃ i, m.table.columnIndex? name = some i ∧ m.table.names[i]? = some name := by
  obtain ⟨i, hi⟩ := List.mem_iff_getElem?.mp (h.key name hname)
  rw [Table.names, List.getElem?_map] at hi
  obtain ⟨c, hc, rfl⟩ := Option.map_eq_some_iff.mp hi
  exact ⟨i, Table.columnIndex?_name h.distinct hc, Table.getElem?_names hc⟩

/-- The names of key columns are matched without regard to case, and yet only they match. -/
theorem isPrimaryKey_iff {c : Column} (hc : c ∈ m.table.columns) :
    m.table.isPrimaryKey c.name = true ↔ c.name ∈ m.table.primaryKey := by
  rw [Table.isPrimaryKey, List.any_eq_true]
  constructor
  · rintro ⟨name, hname, hsame⟩
    obtain ⟨i, -, hi⟩ := h.exists_index_of_mem_key hname
    obtain ⟨j, hj⟩ := List.mem_iff_getElem?.mp hc
    have heq := h.distinct.index_eq hi (Table.getElem?_names hj) hsame
    rw [heq, Table.getElem?_names hj] at hi
    rwa [Option.some.inj hi]
  · intro hname
    exact ⟨c.name, hname, Text.sameLetters_refl c.name⟩

theorem decide_notMem_key {c : Column} (hc : c ∈ m.table.columns) :
    (!m.table.isPrimaryKey c.name) = decide (c.name ∉ m.table.primaryKey) := by
  rw [decide_not, Bool.not_inj_iff, Bool.eq_iff_iff, h.isPrimaryKey_iff hc, decide_eq_true_eq]

@[simp] theorem otherColumns_names : m.table.otherColumns.map (·.name) = m.table.otherNames := by
  rw [Table.otherColumns, Table.otherNames, Table.names, List.filter_map]
  exact congrArg _ (List.filter_congr fun c hc => h.decide_notMem_key hc)

theorem otherCells (values : List Value) :
    (m.table.columns.zip values).filter (fun cell => !m.table.isPrimaryKey cell.1.name) =
      (m.table.columns.zip values).filter fun cell => cell.1.name ∉ m.table.primaryKey :=
  List.filter_congr fun _ hcell => h.decide_notMem_key (List.of_mem_zip hcell).1

theorem exists_isKeyOf {values : List Value} (hlength : values.length = m.table.columns.length)
    (d : Dialect) :
    ∃ key, m.table.IsKeyOf values key ∧ d.keyCondition m.table values =
      .ok (d.condition key) := by
  have hvalue (name : String) (hname : name ∈ m.table.primaryKey) :
      ∃ v, (name, v) ∈ m.table.names.zip values ∧
        d.keyTest m.table values name = .ok (d.assignment name v) := by
    obtain ⟨i, hi, hnames⟩ := h.exists_index_of_mem_key hname
    have hlt : i < values.length := hlength ▸ Table.columnIndex?_lt hi
    have hv : values[i]? = some values[i] := List.getElem?_eq_getElem hlt
    refine ⟨values[i], ?_, by rw [Dialect.keyTest, hi, Option.bind_some, hv]; rfl⟩
    exact List.mem_of_getElem? (i := i) (List.getElem?_zip_eq_some.mpr ⟨hnames, hv⟩)
  obtain ⟨key, hnames, hvalues, htests⟩ :=
    Result.exists_mapM_eq_ok (g := fun cell => d.assignment cell.1 cell.2) hvalue
  refine ⟨key, ⟨hnames, hvalues⟩, ?_⟩
  rw [Dialect.keyCondition_eq]
  exact Result.map_eq_ok_iff.mpr ⟨_, htests, rfl⟩

end Mapping.Consistent

namespace Dialect

section Checks
variable {t : Table} {values : List Value}

theorem checkArity_of_length (h : values.length = t.columns.length) : t.checkArity values = .ok () :=
  if_pos h

theorem length_of_checkArity {u : Unit} (h : t.checkArity values = .ok u) :
    values.length = t.columns.length := by
  unfold Table.checkArity at h
  split at h
  · assumption
  · cases h

theorem requirePrimaryKey_eq_ok_iff {operation : String} {u : Unit} :
    t.requirePrimaryKey operation = .ok u ↔ t.primaryKey ≠ [] := by
  unfold Table.requirePrimaryKey Table.hasPrimaryKey
  cases t.primaryKey <;> simp

variable {d : Dialect}

theorem key_of_delete {s : Statement} (h : d.delete t values = .ok s) : t.primaryKey ≠ [] := by
  obtain ⟨_, -, h⟩ := Result.bind_eq_ok_iff.mp h
  obtain ⟨_, hkey, -⟩ := Result.bind_eq_ok_iff.mp h
  exact requirePrimaryKey_eq_ok_iff.mp hkey

theorem key_of_update {s : Statement} (h : d.update t values = .ok s) : t.primaryKey ≠ [] := by
  obtain ⟨_, -, h⟩ := Result.bind_eq_ok_iff.mp h
  obtain ⟨_, hkey, -⟩ := Result.bind_eq_ok_iff.mp h
  exact requirePrimaryKey_eq_ok_iff.mp hkey

theorem key_of_merge {statements : List Statement} (h : d.merge t values = .ok statements) :
    t.primaryKey ≠ [] ∧ d.mergeForm ≠ .unsupported := by
  have hchecked {rest : Result (List Statement)}
      (h : (t.requirePrimaryKey "merge" >>= fun _ => rest) = .ok statements) :
      t.primaryKey ≠ [] := by
    obtain ⟨_, hkey, -⟩ := Result.bind_eq_ok_iff.mp h
    exact requirePrimaryKey_eq_ok_iff.mp hkey
  unfold merge at h
  cases hform : d.mergeForm with
  | unsupported =>
    simp only [hform, ↓reduceIte] at h
    obtain ⟨_, -, h⟩ := Result.bind_eq_ok_iff.mp h
    cases h
  | _ =>
    simp only [hform, reduceCtorEq, ↓reduceIte] at h
    obtain ⟨_, -, h⟩ := Result.bind_eq_ok_iff.mp h
    exact ⟨hchecked h, nofun⟩

end Checks

/-- What the statements say that a dialect writes for a row of a table, and when there are any. -/
structure Pairs (d : Dialect) (t : Table) (values : List Value) : Prop where
  insert : ∃ s, d.insert t values = .ok s ∧
    d.manipulation? s = some (.insert { table := t.path, row := t.insertedCells values })
  update : ∀ s, d.update t values = .ok s → ∃ key, t.IsKeyOf values key ∧
    d.manipulation? s = some (.update t.path (t.otherCells values) key)
  updates : (∃ s, d.update t values = .ok s) ↔ t.primaryKey ≠ [] ∧ t.otherNames ≠ []
  delete : ∀ s, d.delete t values = .ok s → ∃ key, t.IsKeyOf values key ∧
    d.manipulation? s = some (.delete t.path key)
  deletes : (∃ s, d.delete t values = .ok s) ↔ t.primaryKey ≠ []
  merge : ∀ statements, d.merge t values = .ok statements → ∃ key, t.IsKeyOf values key ∧
    statements.map d.manipulation? = (t.merged d.product values key).map some
  merges : (∃ statements, d.merge t values = .ok statements) ↔
    t.primaryKey ≠ [] ∧ d.product ≠ .generic

theorem exists_insert {d : Dialect} (hd : d.Orderly) {t : Table} {values : List Value}
    (hlength : values.length = t.columns.length) :
    ∃ s, d.insert t values = .ok s ∧
      d.manipulation? s = some (.insert { table := t.path, row := t.insertedCells values }) := by
  have hinsert : d.insert t values = .ok (d.statement (Sql.text "INSERT INTO " ++
      d.valuesClause t
        ((t.columns.zip values).filter fun cell => !cell.1.isGenerated cell.2))) := by
    rw [insert, checkArity_of_length hlength]
    rfl
  have hkeep : (fun cell : Column × Value => !cell.1.isGenerated cell.2) = fun cell =>
      decide (¬ (cell.1.autoIncrement = true ∧ (cell.2 = .null ∨ cell.2.integer? = some 0))) := by
    funext cell
    simp [Column.isGenerated, ← Value.isNull_iff]
  refine ⟨_, hinsert, ?_⟩
  rw [manipulation?_insert hd (hd.insert hinsert), Table.insertedCells, Table.cells, ← hkeep]

/-- The checks of a merge pass. -/
theorem merge_of_key (d : Dialect) {t : Table} {values : List Value}
    (hlength : values.length = t.columns.length) (hkey : t.primaryKey ≠ []) :
    d.merge t values =
      match d.mergeForm with
      | .unsupported => .error (d.lacks .merge)
      | .keyed =>
        .ok [d.statement (Sql.text ("MERGE INTO " ++ d.tableName t ++ " (") ++
          d.names t.names ++ Sql.text ") KEY (" ++ d.names t.primaryKey ++
          Sql.text ") VALUES (" ++ commas (values.map Sql.param) ++ Sql.text ")")]
      | .onDuplicateKey =>
        .ok [d.statement (d.insertAll t values ++ Sql.text " ON DUPLICATE KEY UPDATE " ++
          d.duplicateUpdates t)]
      | .onConflict =>
        .ok [d.statement (d.insertAll t values ++ Sql.text " ON CONFLICT (" ++
          d.names t.primaryKey ++ Sql.text ")" ++ d.conflictAction t)]
      | .orReplace =>
        .ok [d.statement (Sql.text "INSERT OR REPLACE INTO " ++
          d.valuesClause t (t.columns.zip values))]
      | .deleteInsert => (d.delete t values).map fun deletion =>
        [deletion, d.statement (d.insertAll t values)] := by
  unfold merge
  rw [checkArity_of_length hlength, (requirePrimaryKey_eq_ok_iff (u := ())).mpr hkey]
  cases d.mergeForm with
  | deleteInsert => cases d.delete t values <;> rfl
  | _ => rfl

section Sealed
variable {m : Mapping} (hm : m.Consistent) {values : List Value}
  (hlength : values.length = m.table.columns.length) {d : Dialect}
include hm hlength

theorem exists_delete (hd : d.Orderly) (hkey : m.table.primaryKey ≠ []) :
    ∃ s key, d.delete m.table values = .ok s ∧ m.table.IsKeyOf values key ∧
      d.manipulation? s = some (.delete m.table.path key) := by
  obtain ⟨key, hisKey, hcondition⟩ := hm.exists_isKeyOf hlength d
  have hdelete : d.delete m.table values =
      .ok (d.statement (Sql.text ("DELETE FROM " ++ d.tableName m.table) ++ d.condition key)) := by
    rw [delete, checkArity_of_length hlength, (requirePrimaryKey_eq_ok_iff (u := ())).mpr hkey,
      hcondition]
    rfl
  exact ⟨_, key, hdelete, hisKey, manipulation?_delete hd (hd.delete hdelete)⟩

/-- An update without columns to assign is refused. -/
theorem update_eq (hkey : m.table.primaryKey ≠ []) {key : NamedValues}
    (hcondition : d.keyCondition m.table values = .ok (d.condition key)) :
    d.update m.table values =
      if m.table.otherNames = [] then .error (.unsupportedModel m.table.name .onlyKeyColumns)
      else .ok (d.statement (Sql.text ("UPDATE " ++ d.tableName m.table ++ " SET ") ++
        commas (((m.table.columns.zip values).filter fun cell =>
          cell.1.name ∉ m.table.primaryKey).map fun cell => d.assignment cell.1.name cell.2) ++
            d.condition key)) := by
  have hnone : ((m.table.columns.zip values).filter fun cell =>
      cell.1.name ∉ m.table.primaryKey).isEmpty = true ↔ m.table.otherNames = [] := by
    rw [List.isEmpty_iff, ← Table.names_otherCells hlength, Table.otherCells, Table.cells,
      List.map_map, List.map_eq_nil_iff]
  rw [update, checkArity_of_length hlength, (requirePrimaryKey_eq_ok_iff (u := ())).mpr hkey]
  change (if ((m.table.columns.zip values).filter fun cell =>
    !m.table.isPrimaryKey cell.1.name).isEmpty = true then _ else _) = _
  rw [hm.otherCells]
  by_cases hothers : m.table.otherNames = []
  · rw [if_pos (hnone.mpr hothers), if_pos hothers]
    rfl
  · rw [if_neg (mt hnone.mp hothers), if_neg hothers]
    rw [hcondition]
    rfl

theorem exists_update (hd : d.Orderly) (hkey : m.table.primaryKey ≠ [])
    (hothers : m.table.otherNames ≠ []) :
    ∃ s key, d.update m.table values = .ok s ∧ m.table.IsKeyOf values key ∧
      d.manipulation? s = some (.update m.table.path (m.table.otherCells values) key) := by
  obtain ⟨key, hisKey, hcondition⟩ := hm.exists_isKeyOf hlength d
  have hupdate := update_eq hm hlength hkey hcondition
  rw [if_neg hothers] at hupdate
  exact ⟨_, key, hupdate, hisKey, manipulation?_update hd (hd.update hupdate)⟩

theorem exists_merge {p : Product} (version : ProductVersion) (hp : p ≠ .generic)
    (hkey : m.table.primaryKey ≠ []) :
    ∃ statements key, (ofProduct p version).merge m.table values = .ok statements ∧
      m.table.IsKeyOf values key ∧
      statements.map (ofProduct p version).manipulation? =
        (m.table.merged p values key).map some := by
  have hd := orderly_ofProduct p version
  have hmerge := merge_of_key (ofProduct p version) hlength hkey
  obtain ⟨key, hisKey, -⟩ := hm.exists_isKeyOf hlength (ofProduct p version)
  have hothers := hm.otherColumns_names
  cases p with
  | generic => exact absurd rfl hp
  | h2 =>
    have hnames : m.table.names.length = values.length := by
      rw [hlength, Table.names, List.length_map]
    refine ⟨_, key, hmerge, hisKey, ?_⟩
    have htidy := hd.merge hmerge _ List.mem_cons_self
    exact congrArg ([·]) (manipulation?_keyed hd hnames htidy)
  | mySql =>
    refine ⟨_, key, hmerge, hisKey, ?_⟩
    have htidy := hd.merge hmerge _ List.mem_cons_self
    exact congrArg ([·]) (manipulation?_onDuplicateKey hd hothers hkey htidy)
  | postgreSql =>
    refine ⟨_, key, hmerge, hisKey, ?_⟩
    have htidy := hd.merge hmerge _ List.mem_cons_self
    exact congrArg ([·]) (manipulation?_onConflict hd hothers htidy)
  | sqlite =>
    refine ⟨_, key, hmerge, hisKey, ?_⟩
    have htidy := hd.merge hmerge _ List.mem_cons_self
    have hread := manipulation?_replace hd htidy
    rw [Table.map_zip_columns] at hread
    exact congrArg ([·]) hread
  | derby =>
    obtain ⟨deletion, key, hdelete, hisKey, hdeletion⟩ := exists_delete hm hlength hd hkey
    change _ = (delete (ofProduct .derby version) m.table values).map _ at hmerge
    rw [hdelete] at hmerge
    refine ⟨_, key, hmerge, hisKey, ?_⟩
    have htidy := hd.merge hmerge _ (List.mem_cons_of_mem _ List.mem_cons_self)
    have hread := manipulation?_insert hd htidy
    rw [Table.map_zip_columns] at hread
    rw [List.map_cons, List.map_singleton, hdeletion]
    exact congrArg (fun last => [_, last]) hread

theorem others_of_update {s : Statement} (h : d.update m.table values = .ok s) :
    m.table.otherNames ≠ [] := by
  obtain ⟨key, -, hcondition⟩ := hm.exists_isKeyOf hlength d
  intro hnone
  rw [update_eq hm hlength (key_of_update h) hcondition, if_pos hnone] at h
  cases h

end Sealed

/-- Whatever product, version and sealed table: each column is paired with its own value. -/
theorem pairs_of_isSealed (p : Product) (version : ProductVersion) {m : Mapping} (h : m.IsSealed)
    {values : List Value} (hlength : values.length = m.table.columns.length) :
    (ofProduct p version).Pairs m.table values := by
  have hm := h.consistent
  have hd := orderly_ofProduct p version
  have hsame {α : Type} {x : Result α} {a b : α} (ha : x = .ok a) (hb : x = .ok b) : a = b :=
    Except.ok.inj (ha.symm.trans hb)
  have hproduct : (ofProduct p version).mergeForm ≠ .unsupported → p ≠ .generic := by
    rintro hform rfl
    exact hform rfl
  constructor
  case insert => exact exists_insert hd hlength
  case update =>
    intro s hs
    obtain ⟨s', key, hs', hkey, hread⟩ :=
      exists_update hm hlength hd (key_of_update hs) (others_of_update hm hlength hs)
    exact ⟨key, hkey, hsame hs' hs ▸ hread⟩
  case updates =>
    constructor
    · rintro ⟨s, hs⟩
      exact ⟨key_of_update hs, others_of_update hm hlength hs⟩
    · rintro ⟨hkey, hothers⟩
      obtain ⟨s, -, hs, -⟩ := exists_update hm hlength hd hkey hothers
      exact ⟨s, hs⟩
  case delete =>
    intro s hs
    obtain ⟨s', key, hs', hkey, hread⟩ := exists_delete hm hlength hd (key_of_delete hs)
    exact ⟨key, hkey, hsame hs' hs ▸ hread⟩
  case deletes =>
    constructor
    · rintro ⟨s, hs⟩
      exact key_of_delete hs
    · intro hkey
      obtain ⟨s, -, hs, -⟩ := exists_delete hm hlength hd hkey
      exact ⟨s, hs⟩
  case merge =>
    intro statements hs
    obtain ⟨hkey, hform⟩ := key_of_merge hs
    obtain ⟨statements', key, hs', hisKey, hread⟩ :=
      exists_merge hm hlength version (hproduct hform) hkey
    rw [product_ofProduct]
    exact ⟨key, hisKey, hsame hs' hs ▸ hread⟩
  case merges =>
    rw [product_ofProduct]
    constructor
    · rintro ⟨statements, hs⟩
      obtain ⟨hkey, hform⟩ := key_of_merge hs
      exact ⟨hkey, hproduct hform⟩
    · rintro ⟨hkey, hp⟩
      obtain ⟨statements, -, hs, -⟩ := exists_merge hm hlength version hp hkey
      exact ⟨statements, hs⟩

def keyField (name : String) (generated : Bool) : FieldMapping where
  column :=
    { name, fieldName := name, sqlType := .bigInt, primaryKey := true, autoIncrement := generated,
      isByValue := true }
  slot := [name]
  type := .scalar .int64

def orderNote : FieldMapping where
  column := { name := "the \"note\"", fieldName := "note", sqlType := .varchar }
  slot := ["note"]
  type := .scalar .string

def orderMapping : Mapping where
  table :=
    { name := "orders", schema := some "shop",
      columns := [(keyField "order" true).column, (keyField "line" false).column, orderNote.column],
      primaryKey := ["line", "order"] }
  fields := [keyField "order" true, keyField "line" false, orderNote]

def tagLinkMapping : Mapping where
  table :=
    { name := "tags", columns := [(keyField "a" false).column, (keyField "b" false).column],
      primaryKey := ["b", "a"] }
  fields := [keyField "a" false, keyField "b" false]

theorem isSealed_orderMapping : orderMapping.IsSealed := ⟨orderMapping, "orders", rfl⟩

theorem isSealed_tagLinkMapping : tagLinkMapping.IsSealed := ⟨tagLinkMapping, "tags", rfl⟩

def orderValues : List Value := [.int64 0, .int64 2, .text "? it's"]

theorem pairs_orderMapping :
    orderMapping.IsSealed ∧ orderValues.length = orderMapping.table.columns.length ∧
      (ofProduct .postgreSql .zero).Pairs orderMapping.table orderValues ∧
      orderMapping.table.insertedCells orderValues =
        [("line", .int64 2), ("the \"note\"", .text "? it's")] :=
  ⟨isSealed_orderMapping, rfl, pairs_of_isSealed .postgreSql .zero isSealed_orderMapping rfl,
    by decide⟩

/-- A merge must assign something in this product, and so it assigns a key column to itself. -/
theorem merge_tagLink_assigns_key :
    tagLinkMapping.IsSealed ∧ tagLinkMapping.table.otherNames = [] ∧
      ∃ s, (ofProduct .mySql .zero).merge tagLinkMapping.table [.int64 1, .int64 2] = .ok [s] ∧
        s.sql = "INSERT INTO `tags` (`a`, `b`) VALUES (?, ?) ON DUPLICATE KEY UPDATE `b` = `b`" ∧
        (ofProduct .mySql .zero).manipulation? s = some (.insert
          { table := ["tags"], row := [("a", .int64 1), ("b", .int64 2)],
            taken := .updated [("b", .present "b")] }) := by
  refine ⟨isSealed_tagLinkMapping, by decide, _, rfl, ?_, ?_⟩
  · decide
  · decide +kernel

end Dialect

end RecordMapper
