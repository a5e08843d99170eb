import RecordMapper.Proofs.Dialect.Pairing
import RecordMapper.Proofs.Query.Settings

/-!
# Generated columns

An insert leaves a generated column out if it holds null or zero. The database fills the column if
the table has been created with a definition by which it generates values: a clause of its own, a
type of its own, or in SQLite an integer key that is declared with the column. The definition is
read from its text here.

The definition of a generated column does not always generate: SQLite has no such column beside
others in a key, and PostgreSQL has none of another type than an integer.
-/

set_option autoImplicit false

namespace RecordMapper

namespace Text

/-- What stands between the blanks of a text. -/
def words (s : String) : List String := (s.toList.splitOn ' ').map String.ofList

@[simp] theorem words_append (a b : String) : words (a ++ (" " ++ b)) = words a ++ words b := by
  rw [words, String.toList_append, String.toList_append]
  change ((a.toList ++ ' ' :: b.toList).splitOn ' ').map String.ofList = _
  rw [List.splitOn, List.splitOnP_append_cons _ _ rfl, List.map_append]
  rfl

theorem head_words (s : String) : ∃ w, (words s).head? = some w ∧ w.toList <+: s.toList := by
  by_cases hblank : ' ' ∈ s.toList
  · obtain ⟨before, behind, hs, hbefore⟩ := List.eq_append_cons_of_mem hblank
    refine ⟨String.ofList before, ?_, ?_⟩
    · rw [words, hs, List.splitOn, List.splitOnP_append_cons _ _ rfl, ← List.splitOn,
        List.splitOn_eq_singleton hbefore]
      rfl
    · rw [hs, String.toList_ofList]
      exact List.prefix_append _ _
  · refine ⟨s, ?_, List.prefix_rfl⟩
    rw [words, List.splitOn_eq_singleton hblank, List.map_singleton, String.ofList_toList]
    rfl

end Text

/-- A column with these words behind its name takes values that the product generates. -/
def Product.Generates (p : Product) (words : List String) : Prop :=
  match p with
  | .h2 | .mySql => "AUTO_INCREMENT" ∈ words
  | .generic | .derby => ["GENERATED", "BY", "DEFAULT", "AS", "IDENTITY"] <:+: words
  | .postgreSql => words.head? = some "SERIAL" ∨ words.head? = some "BIGSERIAL"
  | .sqlite => words = ["INTEGER", "PRIMARY", "KEY", "AUTOINCREMENT"]

namespace Dialect

/-- The words of a column's definition, behind its name and a blank. -/
def definitionWords (d : Dialect) (t : Table) (c : Column) : List String :=
  let definition := (d.columnDefinition t c).toList
  Text.words (String.ofList (definition.drop ((d.quote c.name).toList.length + 1)))

theorem definitionWords_eq {d : Dialect} {t : Table} {c : Column} {body : String}
    (h : d.columnDefinition t c = d.quote c.name ++ (" " ++ body)) :
    d.definitionWords t c = Text.words body := by
  have hdrop : ((d.columnDefinition t c).toList.drop ((d.quote c.name).toList.length + 1)) =
      body.toList := by
    rw [h, String.toList_append, String.toList_append, List.drop_append]
    simp
  rw [definitionWords, hdrop, String.ofList_toList]

/-- What stands behind the type of a column that is not declared as the key. -/
def constraints (d : Dialect) (c : Column) : String :=
  (match c.autoIncrement, d.identityClause with
    | true, some clause => " " ++ clause
    | _, _ => "") ++ if c.nullable then "" else " NOT NULL"

theorem definitionWords_typed {d : Dialect} {t : Table} {c : Column}
    (h : (d.inlineKeyColumn? t).any (·.name = c.name) = false) :
    d.definitionWords t c = Text.words (d.typeName c ++ d.constraints c) := by
  have hdefinition : ∃ identity,
      d.constraints c = identity ++ (if c.nullable then "" else " NOT NULL") ∧
        d.columnDefinition t c = d.quote c.name ++ " " ++ d.typeName c ++ identity ++
          (if c.nullable then "" else " NOT NULL") := by
    refine ⟨_, rfl, ?_⟩
    rw [columnDefinition, h]
    rfl
  obtain ⟨identity, hconstraints, hdefinition⟩ := hdefinition
  refine definitionWords_eq ?_
  rw [hdefinition, hconstraints]
  simp only [String.append_assoc]

theorem definitionWords_inline {d : Dialect} {t : Table} {c : Column}
    (h : (d.inlineKeyColumn? t).any (·.name = c.name) = true) :
    d.definitionWords t c = ["INTEGER", "PRIMARY", "KEY", "AUTOINCREMENT"] := by
  have hbody : d.columnDefinition t c =
      d.quote c.name ++ (" " ++ "INTEGER PRIMARY KEY AUTOINCREMENT") := by
    rw [columnDefinition, h]
    rfl
  rw [definitionWords_eq hbody]
  decide

/-- The clause of the product stands among the words of a generated column. -/
theorem infix_definitionWords {d : Dialect} {t : Table} {c : Column} (hinline : d.inlineKey = false)
    (hauto : c.autoIncrement = true) {clause : String} (hclause : d.identityClause = some clause) :
    Text.words clause <:+: d.definitionWords t c := by
  have hnone : (d.inlineKeyColumn? t).any (·.name = c.name) = false := by
    rw [inlineKeyColumn?, hinline]
    rfl
  rw [definitionWords_typed hnone, constraints, hauto, hclause]
  simp only
  split
  · rw [String.append_empty, Text.words_append]
    exact (List.suffix_append _ _).isInfix
  · change _ <:+: Text.words (d.typeName c ++ (" " ++ clause ++ (" " ++ "NOT NULL")))
    rw [← String.append_assoc, Text.words_append, Text.words_append]
    exact (List.suffix_append _ _).isInfix.trans (List.prefix_append _ _).isInfix

end Dialect

theorem Table.column?_name {t : Table} (h : DistinctNames t.names) {c : Column}
    (hc : c ∈ t.columns) : t.column? c.name = some c := by
  obtain ⟨i, hi⟩ := List.getElem?_of_mem hc
  rw [column?, columnIndex?_name h hi]
  exact hi

/-- The product can generate values of the column, as far as the table and the type go. -/
def Table.Supports (t : Table) (p : Product) (c : Column) : Prop :=
  (p = .postgreSql → c.sqlType.isInteger = true) ∧ (p = .sqlite → t.primaryKey = [c.name])

namespace Dialect

section InlineKey
variable {d : Dialect} {m : Mapping} (hm : m.Consistent) {c : Column}
include hm

/-- The column that is found under the only name of a key is the column of that name. -/
theorem inlineKeyColumn?_eq_some_iff :
    d.inlineKeyColumn? m.table = some c ↔ d.inlineKey = true ∧ c ∈ m.table.columns ∧
      m.table.primaryKey = [c.name] ∧ c.autoIncrement = true := by
  constructor
  · intro h
    unfold inlineKeyColumn? at h
    split at h
    · next key hinline hkey =>
      obtain ⟨hcolumn, hauto⟩ := Option.filter_eq_some_iff.mp h
      obtain ⟨c', hc', rfl⟩ := List.mem_map.mp (hm.key key (hkey ▸ List.mem_cons_self))
      rw [Table.column?_name hm.distinct hc'] at hcolumn
      obtain rfl := Option.some.inj hcolumn
      exact ⟨hinline, hc', hkey, hauto⟩
    · cases h
  · rintro ⟨hinline, hc, hkey, hauto⟩
    rw [inlineKeyColumn?, hinline, hkey]
    simp [Table.column?_name hm.distinct hc, hauto]

/-- The key is declared with a column if the column is generated and all of the key. -/
theorem any_inlineKeyColumn?_iff (hc : c ∈ m.table.columns) :
    (d.inlineKeyColumn? m.table).any (·.name = c.name) = true ↔
      d.inlineKey = true ∧ m.table.primaryKey = [c.name] ∧ c.autoIncrement = true := by
  constructor
  · intro h
    obtain ⟨found, hfound, hname⟩ := (Option.any_eq_true _ _).mp h
    obtain ⟨hinline, hmem, hkey, hauto⟩ := (inlineKeyColumn?_eq_some_iff hm).mp hfound
    have hsame := Table.column?_name hm.distinct hmem
    rw [of_decide_eq_true hname, Table.column?_name hm.distinct hc] at hsame
    obtain rfl := Option.some.inj hsame
    exact ⟨hinline, hkey, hauto⟩
  · rintro ⟨hinline, hkey, hauto⟩
    rw [(inlineKeyColumn?_eq_some_iff hm).mpr ⟨hinline, hc, hkey, hauto⟩]
    exact decide_eq_true rfl

end InlineKey

theorem standardType_begins (c : Column) : c.sqlType.name.toList <+: (standardType c).toList := by
  unfold standardType
  split
  · next htype _ =>
    rw [htype, String.toList_append, String.toList_append, List.append_assoc]
    exact List.prefix_append_of_prefix (by decide)
  · next htype _ _ =>
    simp only [htype, String.toList_append, List.append_assoc]
    exact List.prefix_append_of_prefix (by decide)
  · next htype _ _ =>
    rw [htype, String.toList_append, String.toList_append, List.append_assoc]
    exact List.prefix_append_of_prefix (by decide)
  · exact List.prefix_rfl

/-- What the types begin with that have no values to generate. -/
def plainHeads : List String :=
  ["BOOLEAN", "REAL", "DOUBLE", "DECIMAL", "VARCHAR", "CLOB", "TEXT", "BLOB", "BYTEA", "DATE",
    "TIME", "UUID"]

theorem postgreSqlType_begins {c : Column} (h : c.sqlType.isInteger = false) :
    ∃ head ∈ plainHeads, head.toList <+: (postgreSqlType c).toList := by
  have hname : ∀ type : SqlType, type.isInteger = false →
      ∃ head ∈ plainHeads, head.toList <+: type.name.toList := by
    intro type
    cases type <;> decide
  unfold postgreSqlType
  split
  case h_1 htype _ | h_2 htype _ | h_3 htype _ | h_4 htype _ =>
    rw [htype] at h
    cases h
  case h_5 htype _ =>
    rw [htype] at h
    cases h
  case h_6 => decide
  case h_7 => decide
  case h_8 => decide
  case h_9 =>
    obtain ⟨head, hhead, hbegins⟩ := hname c.sqlType h
    exact ⟨head, hhead, hbegins.trans (standardType_begins c)⟩

theorem generates_postgreSql_iff {t : Table} {c : Column} (hauto : c.autoIncrement = true) :
    Product.postgreSql.Generates (postgreSql.definitionWords t c) ↔ c.sqlType.isInteger = true := by
  have hwords : postgreSql.definitionWords t c =
      Text.words (postgreSqlType c ++ postgreSql.constraints c) := definitionWords_typed rfl
  have hconstraints : postgreSql.constraints c = if c.nullable then "" else " NOT NULL" := by
    rw [constraints, hauto]
    exact String.empty_append
  rw [hwords]
  cases hinteger : c.sqlType.isInteger with
  | true =>
    refine iff_of_true ?_ rfl
    have hserial : postgreSqlType c = "SERIAL" ∨ postgreSqlType c = "BIGSERIAL" := by
      unfold postgreSqlType
      rw [hauto]
      cases htype : c.sqlType
      case tinyInt | smallInt | integer => exact .inl rfl
      case bigInt => exact .inr rfl
      all_goals
        rw [htype] at hinteger
        cases hinteger
    rw [hconstraints]
    rcases hserial with htype | htype <;> rw [htype] <;> split
    · exact .inl (by decide)
    · exact .inl (by decide)
    · exact .inr (by decide)
    · exact .inr (by decide)
  | false =>
    refine iff_of_false ?_ nofun
    obtain ⟨head, hhead, hbegins⟩ := postgreSqlType_begins hinteger
    obtain ⟨first, hfirst, hword⟩ := Text.head_words (postgreSqlType c ++ postgreSql.constraints c)
    have hboth : head.toList <+: (postgreSqlType c ++ postgreSql.constraints c).toList := by
      rw [String.toList_append]
      exact List.prefix_append_of_prefix hbegins
    have hdisjoint : ∀ head ∈ plainHeads, ∀ serial ∈ ["SERIAL", "BIGSERIAL"],
        ¬ (serial.toList <+: head.toList ∨ head.toList <+: serial.toList) := by decide
    have hnot (serial : String) (hserial : serial ∈ ["SERIAL", "BIGSERIAL"])
        (h : (Text.words (postgreSqlType c ++ postgreSql.constraints c)).head? = some serial) :
        False := by
      rw [hfirst] at h
      obtain rfl := Option.some.inj h
      exact hdisjoint head hhead first hserial (List.prefix_or_prefix_of_prefix hword hboth)
    rintro (h | h)
    · exact hnot _ (by decide) h
    · exact hnot _ (by decide) h

theorem generates_sqlite_iff {m : Mapping} (hm : m.Consistent) {c : Column}
    (hc : c ∈ m.table.columns) (hauto : c.autoIncrement = true) :
    Product.sqlite.Generates (sqlite.definitionWords m.table c) ↔
      m.table.primaryKey = [c.name] := by
  have hinlined := any_inlineKeyColumn?_iff (d := sqlite) hm hc
  have hkeyed : (sqlite.inlineKeyColumn? m.table).any (·.name = c.name) = true ↔
      m.table.primaryKey = [c.name] :=
    ⟨fun h => (hinlined.mp h).2.1, fun h => hinlined.mpr ⟨rfl, h, hauto⟩⟩
  rw [← hkeyed]
  cases hinline : (sqlite.inlineKeyColumn? m.table).any (·.name = c.name) with
  | true => exact iff_of_true (definitionWords_inline hinline) rfl
  | false =>
    refine iff_of_false ?_ nofun
    have htype : sqliteType c ∈ ["INTEGER", "REAL", "NUMERIC", "BLOB", "TEXT"] := by
      unfold sqliteType
      split <;> decide
    have hconstraints : sqlite.constraints c ∈ ["", " NOT NULL"] := by
      rw [constraints, hauto]
      change "" ++ _ ∈ _
      rw [String.empty_append]
      split <;> decide
    have hwords : ∀ type ∈ ["INTEGER", "REAL", "NUMERIC", "BLOB", "TEXT"],
        ∀ behind ∈ ["", " NOT NULL"],
          Text.words (type ++ behind) ≠ ["INTEGER", "PRIMARY", "KEY", "AUTOINCREMENT"] := by decide
    rw [definitionWords_typed hinline]
    exact hwords _ htype _ hconstraints

/-- How the column of a generated value is declared, product by product. -/
theorem generates_iff (p : Product) (version : ProductVersion) {m : Mapping} (hm : m.Consistent)
    {c : Column} (hc : c ∈ m.table.columns) (hauto : c.autoIncrement = true) :
    p.Generates ((ofProduct p version).definitionWords m.table c) ↔ m.table.Supports p c := by
  have hclause {clause : String} (hp : p ≠ .postgreSql ∧ p ≠ .sqlite)
      (hinline : (ofProduct p version).inlineKey = false)
      (hidentity : (ofProduct p version).identityClause = some clause)
      (h : Text.words clause <:+: (ofProduct p version).definitionWords m.table c →
        p.Generates ((ofProduct p version).definitionWords m.table c)) :
      p.Generates ((ofProduct p version).definitionWords m.table c) ↔ m.table.Supports p c :=
    iff_of_true (h (infix_definitionWords hinline hauto hidentity))
      ⟨fun heq => absurd heq hp.1, fun heq => absurd heq hp.2⟩
  have hidentity : Text.words "GENERATED BY DEFAULT AS IDENTITY" =
      ["GENERATED", "BY", "DEFAULT", "AS", "IDENTITY"] := by decide
  have hincrement : Text.words "AUTO_INCREMENT" = ["AUTO_INCREMENT"] := by decide
  cases p with
  | generic => exact hclause ⟨nofun, nofun⟩ rfl rfl (hidentity ▸ id)
  | derby => exact hclause ⟨nofun, nofun⟩ rfl rfl (hidentity ▸ id)
  | h2 =>
    refine hclause ⟨nofun, nofun⟩ rfl rfl fun h => ?_
    rw [hincrement] at h
    exact h.mem List.mem_cons_self
  | mySql =>
    refine hclause ⟨nofun, nofun⟩ rfl rfl fun h => ?_
    rw [hincrement] at h
    exact h.mem List.mem_cons_self
  | postgreSql =>
    refine (generates_postgreSql_iff hauto).trans ?_
    exact ⟨fun h => ⟨fun _ => h, nofun⟩, fun h => h.1 rfl⟩
  | sqlite =>
    refine (generates_sqlite_iff hm hc hauto).trans ?_
    exact ⟨fun h => ⟨nofun, fun _ => h⟩, fun h => h.2 rfl⟩

/-- Between what stands before and behind the columns there are their definitions. -/
theorem sql_createTable (d : Dialect) (t : Table) : ∃ before behind, (d.createTable t).sql =
    before ++ ", ".intercalate (t.columns.map (d.columnDefinition t)) ++ behind := by
  have hcolumns (style : PlaceholderStyle) :
      (Sql.commas (t.columns.map fun c => Sql.text (d.columnDefinition t c))).written style 0 =
        ", ".intercalate (t.columns.map (d.columnDefinition t)) := by
    rw [Sql.written_commas, List.map_map]
    · refine congrArg _ (List.map_congr_left fun c _ => ?_)
      exact String.append_empty
    · intro item hitem
      obtain ⟨c, -, rfl⟩ := List.mem_map.mp hitem
      rfl
  have hbody (head : String) (key : Sql) : ∃ behind,
      (d.statement (Sql.text head ++
        Sql.commas (t.columns.map fun c => Sql.text (d.columnDefinition t c)) ++ key ++
        Sql.text ")")).sql =
      head ++ ", ".intercalate (t.columns.map (d.columnDefinition t)) ++ behind := by
    rw [Statement.sql, statement, Sql.written_append, Sql.written_append, Sql.written_append,
      String.append_assoc, ← hcolumns (.ofProduct d.product)]
    change ∃ behind, head ++ "" ++ _ ++ _ = _
    rw [String.append_empty]
    exact ⟨_, rfl⟩
  exact ⟨_, hbody _ _⟩

end Dialect

/-- The columns that an insert leaves out, by their own values. -/
theorem Mapping.Consistent.notMem_insertedCells_iff {m : Mapping} (hm : m.Consistent)
    {values : List Value} {i : Nat} {c : Column} {v : Value} (hc : m.table.columns[i]? = some c)
    (hv : values[i]? = some v) :
    c.name ∉ (m.table.insertedCells values).map (·.1) ↔
      c.autoIncrement = true ∧ (v = .null ∨ v.integer? = some 0) := by
  rw [not_iff_comm]
  constructor
  · intro hkept
    refine List.mem_map.mpr ⟨(c.name, v), List.mem_map.mpr ⟨(c, v), ?_, rfl⟩, rfl⟩
    refine List.mem_filter.mpr ⟨?_, decide_eq_true hkept⟩
    exact List.mem_of_getElem? (List.getElem?_zip_eq_some.mpr ⟨hc, hv⟩)
  · intro hmem
    obtain ⟨_, hcell, hname⟩ := List.mem_map.mp hmem
    obtain ⟨⟨c', v'⟩, hfiltered, rfl⟩ := List.mem_map.mp hcell
    obtain ⟨hzip, hkept⟩ := List.mem_filter.mp hfiltered
    obtain ⟨j, hj⟩ := List.getElem?_of_mem hzip
    obtain ⟨hc', hv'⟩ := List.getElem?_zip_eq_some.mp hj
    have hij : j = i := hm.distinct.index_eq (Table.getElem?_names hc') (Table.getElem?_names hc)
      (hname ▸ Text.sameLetters_refl _)
    subst hij
    obtain rfl := Option.some.inj (hc'.symm.trans hc)
    obtain rfl := Option.some.inj (hv'.symm.trans hv)
    exact of_decide_eq_true hkept

namespace Dialect

/-- A column that an insert leaves out is one whose values the product generates, by the definition
with which the table is created, exactly if the product supports such a column there. -/
theorem omitted_generates_iff (p : Product) (version : ProductVersion) {m : Mapping}
    (h : m.IsSealed) {values : List Value} (hlength : values.length = m.table.columns.length) :
    let d := ofProduct p version
    (∃ before behind, (d.createTable m.table).sql =
      before ++ ", ".intercalate (m.table.columns.map (d.columnDefinition m.table)) ++ behind) ∧
    ∃ s row, d.insert m.table values = .ok s ∧
      d.manipulation? s = some (.insert { table := m.table.path, row }) ∧
      ∀ (i : Nat) (c : Column) (v : Value), m.table.columns[i]? = some c → values[i]? = some v →
        (c.name ∉ row.map (·.1) ↔ c.autoIncrement = true ∧ (v = .null ∨ v.integer? = some 0)) ∧
        (c.name ∉ row.map (·.1) →
          (p.Generates (d.definitionWords m.table c) ↔ m.table.Supports p c)) := by
  intro d
  have hm := h.consistent
  obtain ⟨s, hinsert, hread⟩ := exists_insert (orderly_ofProduct p version) hlength
  refine ⟨sql_createTable d m.table, s, _, hinsert, hread, fun i c v hc hv => ?_⟩
  have homitted := hm.notMem_insertedCells_iff hc hv
  refine ⟨homitted, fun hnot => ?_⟩
  exact generates_iff p version hm (List.mem_of_getElem? hc) (homitted.mp hnot).1

/-- Lines are numbered by the database within a key of two columns. -/
def lineMapping : Mapping where
  table :=
    { name := "order_lines",
      columns := [(keyField "order_id" false).column, (keyField "line_no" true).column],
      primaryKey := ["order_id", "line_no"] }
  fields := [keyField "order_id" false, keyField "line_no" true]

theorem isSealed_lineMapping : lineMapping.IsSealed := ⟨lineMapping, "order_lines", rfl⟩

theorem line_omitted_generates :
    lineMapping.IsSealed ∧ [Value.int64 7, .int64 0].length = lineMapping.table.columns.length ∧
      ∃ s row, (ofProduct .postgreSql .zero).insert lineMapping.table [.int64 7, .int64 0] = .ok s ∧
        (ofProduct .postgreSql .zero).manipulation? s =
          some (.insert { table := lineMapping.table.path, row }) ∧
        "line_no" ∉ row.map (·.1) ∧
        Product.postgreSql.Generates ((ofProduct .postgreSql .zero).definitionWords
          lineMapping.table (keyField "line_no" true).column) := by
  obtain ⟨-, s, row, hinsert, hread, hcolumns⟩ :=
    omitted_generates_iff .postgreSql .zero isSealed_lineMapping
      (rfl : [Value.int64 7, .int64 0].length = lineMapping.table.columns.length)
  obtain ⟨homitted, hgenerates⟩ := hcolumns 1 _ _ rfl rfl
  have hline : "line_no" ∉ row.map (·.1) := homitted.mpr ⟨rfl, .inr (by decide)⟩
  exact ⟨isSealed_lineMapping, rfl, s, row, hinsert, hread, hline,
    (hgenerates hline).mpr ⟨fun _ => rfl, nofun⟩⟩

/-- The column is left out, cannot be null, and nothing generates its values. -/
theorem line_omitted_not_generated :
    lineMapping.IsSealed ∧
      (∃ s, (ofProduct .sqlite .zero).insert lineMapping.table [.int64 7, .int64 0] = .ok s ∧
        s.sql = "INSERT INTO \"order_lines\" (\"order_id\") VALUES (?)") ∧
      ((ofProduct .sqlite .zero).createTable lineMapping.table).sql =
        "CREATE TABLE IF NOT EXISTS \"order_lines\" (\"order_id\" INTEGER NOT NULL, " ++
          "\"line_no\" INTEGER NOT NULL, PRIMARY KEY (\"order_id\", \"line_no\"))" ∧
      ¬ Product.sqlite.Generates ((ofProduct .sqlite .zero).definitionWords lineMapping.table
        (keyField "line_no" true).column) := by
  refine ⟨isSealed_lineMapping, ⟨_, rfl, ?_⟩, ?_, ?_⟩
  · decide
  · decide
  · change Dialect.definitionWords _ _ _ ≠ _
    decide

end Dialect

end RecordMapper
