import RecordMapper.Proofs.Dialect.Spelling

/-!
# The statements of dialects read back

The statements that write rows, each with what it is read as, whatever the table. The same holds of
what a merge does when the row is there already: by the form of the product the values of the other
columns are taken over, or the row is replaced.
-/

set_option autoImplicit false

namespace RecordMapper

open Sql Token

namespace Table

/-- What is assigned behind `ON DUPLICATE KEY`, which must assign something: the first column of the
key keeps its value if there are no other columns. -/
def duplicateAssignments (t : Table) : List (String × Source) :=
  if t.otherNames = [] then (t.primaryKey.take 1).map fun name => (name, .present name)
  else t.insertedAssignments

theorem map_zip_columns (t : Table) (values : List Value) :
    ((t.columns.zip values).map fun cell => (cell.1.name, cell.2)) = t.names.zip values := by
  rw [names, List.zip_map_left]
  rfl

end Table

namespace Dialect

/-- What a statement says to the product of the dialect. -/
def manipulation? (d : Dialect) (s : Statement) : Option Manipulation :=
  Manipulation.ofTokens? d.identifierMark s.tokens

section Clauses
variable (d : Dialect) (t : Table)

open Manipulation

theorem rowTokens_append (row : NamedValues) (rest : List Token) :
    d.rowTokens t row ++ rest = d.pathTokens t ++ .mark '(' :: (d.nameTokens (row.map (·.1)) ++
      .mark ')' :: .word "VALUES" :: .mark '(' :: (valueTokens (row.map (·.2)) ++
        .mark ')' :: rest)) := by
  simp [rowTokens]

theorem row?_rowTokens (row : NamedValues) (rest : List Token) :
    row? (row.map (·.1)) (.word "VALUES" :: .mark '(' :: (valueTokens (row.map (·.2)) ++
      .mark ')' :: rest)) = some (row, rest) := by
  rw [row?_tokens _ _ (by rw [List.length_map, List.length_map]), ← List.zip_of_prod rfl rfl]

theorem insertion?_rowTokens (row : NamedValues) {rest : List Token} {key : List String}
    {taken : Taken} (h : taken? d.identifierMark rest = some (key, taken)) :
    insertion? d.identifierMark (d.rowTokens t row ++ rest) =
      some { table := t.path, row, key, taken } := by
  rw [rowTokens_append, insertion?, target?_tokens]
  change (row? _ _ >>= _) = _
  rw [row?_rowTokens]
  change (taken? _ _ >>= _) = _
  rw [h]
  rfl

theorem replacement?_rowTokens (row : NamedValues) :
    replacement? d.identifierMark (d.rowTokens t row) =
      some { table := t.path, row, taken := .replaced } := by
  rw [← List.append_nil (d.rowTokens t row), rowTokens_append, replacement?, target?_tokens]
  change (row? _ _ >>= _) = _
  rw [row?_rowTokens]
  rfl

end Clauses

theorem manipulation?_statement {d : Dialect} {body : Sql} (htidy : body.Tidy) {a : List Atom}
    {ts : List Token} (hread : scanner.read .outside a = ts) (hatoms : body.atoms = a) :
    d.manipulation? (d.statement body) = Manipulation.ofTokens? d.identifierMark ts := by
  have htokens : (d.statement body).tokens = scanner.read .outside body.atoms :=
    Tidy.tokens_eq htidy
  rw [manipulation?, htokens, hatoms, hread]

section Statements
variable {d : Dialect} (hd : d.Orderly) {t : Table} {cells : List (Column × Value)}
  {key : NamedValues}
include hd

theorem delimited_row {keywords : String} {ts : List Token} (h : Delimited (chars keywords) ts) :
    Delimited (Sql.text keywords ++ d.valuesClause t cells).atoms
      (ts ++ d.rowTokens t (cells.map fun cell => (cell.1.name, cell.2))) := by
  rw [atoms_append, atoms_text]
  exact h.append (delimited_valuesClause hd t cells)

theorem manipulation?_insert (htidy : (Sql.text "INSERT INTO " ++ d.valuesClause t cells).Tidy) :
    d.manipulation? (d.statement (Sql.text "INSERT INTO " ++ d.valuesClause t cells)) =
      some (.insert { table := t.path, row := cells.map fun cell => (cell.1.name, cell.2) }) := by
  have hinsert : Delimited (chars "INSERT INTO ") [.word "INSERT", .word "INTO"] := fun _ => rfl
  rw [manipulation?_statement htidy (delimited_row hd hinsert).spells.read_eq rfl]
  change (Manipulation.insertion? _ (d.rowTokens t _)).map _ = _
  rw [← List.append_nil (d.rowTokens t _), insertion?_rowTokens d t _ rfl]
  rfl

theorem manipulation?_replace
    (htidy : (Sql.text "INSERT OR REPLACE INTO " ++ d.valuesClause t cells).Tidy) :
    d.manipulation? (d.statement (Sql.text "INSERT OR REPLACE INTO " ++ d.valuesClause t cells)) =
      some (.insert
        { table := t.path, row := cells.map fun cell => (cell.1.name, cell.2),
          taken := .replaced }) := by
  have hreplace : Delimited (chars "INSERT OR REPLACE INTO ")
      [.word "INSERT", .word "OR", .word "REPLACE", .word "INTO"] := fun _ => rfl
  rw [manipulation?_statement htidy (delimited_row hd hreplace).spells.read_eq rfl]
  change (Manipulation.replacement? _ (d.rowTokens t _)).map _ = _
  rw [replacement?_rowTokens]
  rfl

theorem manipulation?_delete
    (htidy : (Sql.text ("DELETE FROM " ++ d.tableName t) ++ d.condition key).Tidy) :
    d.manipulation? (d.statement (Sql.text ("DELETE FROM " ++ d.tableName t) ++ d.condition key)) =
      some (.delete t.path key) := by
  have hdelete : Delimited (chars "DELETE FROM ") [.word "DELETE", .word "FROM"] := fun _ => rfl
  have htable := hdelete.append_spells (spells_tableName hd t)
  have hall := htable.append (spells_condition hd key) (by rintro c ⟨⟩; rfl)
  rw [manipulation?_statement htidy hall.read_eq
    (by simp)]
  change (Manipulation.cut? _ (d.pathTokens t ++ .word "WHERE" :: listed _ _) >>= _) = _
  rw [cut?_pathTokens d (by simp [nameToken]) (by decide)]
  change (Manipulation.path? _ _ >>= _) = _
  rw [path?_pathTokens]
  change (Manipulation.condition? _ _ >>= _) = _
  rw [condition?_tokens]
  rfl

theorem manipulation?_update
    (htidy : (Sql.text ("UPDATE " ++ d.tableName t ++ " SET ") ++
      commas (cells.map fun cell => d.assignment cell.1.name cell.2) ++ d.condition key).Tidy) :
    d.manipulation? (d.statement (Sql.text ("UPDATE " ++ d.tableName t ++ " SET ") ++
      commas (cells.map fun cell => d.assignment cell.1.name cell.2) ++ d.condition key)) =
      some (.update t.path (cells.map fun cell => (cell.1.name, cell.2)) key) := by
  have hupdate : Delimited (chars "UPDATE ") [.word "UPDATE"] := fun _ => rfl
  have hset : Delimited (chars " SET ") [.word "SET"] := fun _ => rfl
  have htable := (hupdate.append_spells (spells_tableName hd t)).append_delimited hset rfl rfl
  have hassigned := htable.append_spells (spells_assignments hd cells)
  have hall := hassigned.append (spells_condition hd key) (by rintro c ⟨⟩; rfl)
  simp only [List.append_assoc] at hall
  rw [manipulation?_statement htidy hall.read_eq
    (by simp)]
  change (Manipulation.cut? _ (d.pathTokens t ++ .word "SET" :: (listed _ _ ++ .word "WHERE" ::
    listed _ _)) >>= _) = _
  rw [cut?_pathTokens d (by simp [nameToken]) (by decide)]
  change (Manipulation.cut? _ _ >>= _) = _
  rw [cut?_cellTokens]
  change (Manipulation.path? _ _ >>= _) = _
  rw [path?_pathTokens]
  change (Manipulation.items? _ _ _ >>= _) = _
  rw [assignments?_tokens]
  change (Manipulation.condition? _ _ >>= _) = _
  rw [condition?_tokens]
  rfl

theorem manipulation?_keyed {values : List Value} (hlength : t.names.length = values.length)
    (htidy : (Sql.text ("MERGE INTO " ++ d.tableName t ++ " (") ++ d.names t.names ++
      Sql.text ") KEY (" ++ d.names t.primaryKey ++ Sql.text ") VALUES (" ++
        commas (values.map Sql.param) ++ Sql.text ")").Tidy) :
    d.manipulation? (d.statement (Sql.text ("MERGE INTO " ++ d.tableName t ++ " (") ++
      d.names t.names ++ Sql.text ") KEY (" ++ d.names t.primaryKey ++ Sql.text ") VALUES (" ++
        commas (values.map Sql.param) ++ Sql.text ")")) =
      some (.insert
        { table := t.path, row := t.names.zip values, key := t.primaryKey,
          taken := .replaced }) := by
  have hmerge : Delimited (chars "MERGE INTO ") [.word "MERGE", .word "INTO"] := fun _ => rfl
  have hopen : Delimited (chars " (") [.mark '('] := fun _ => rfl
  have hkey : Delimited (chars ") KEY (") [.mark ')', .word "KEY", .mark '('] := fun _ => rfl
  have hvalues : Delimited (chars ") VALUES (") [.mark ')', .word "VALUES", .mark '('] :=
    fun _ => rfl
  have hclose : Delimited (chars ")") [.mark ')'] := fun _ => rfl
  have htable := (hmerge.append_spells (spells_tableName hd t)).append_delimited hopen rfl rfl
  have hnames := (htable.append_spells (spells_names hd t.names)).append_delimited hkey rfl rfl
  have hkeys :=
    (hnames.append_spells (spells_names hd t.primaryKey)).append_delimited hvalues rfl rfl
  have hall := (hkeys.append_spells (spells_values values)).append_delimited hclose rfl rfl
  simp only [List.append_assoc] at hall
  rw [manipulation?_statement htidy hall.spells.read_eq
    (by simp)]
  change (Manipulation.merge? _ (d.pathTokens t ++ .mark '(' :: (d.nameTokens t.names ++
    .mark ')' :: .word "KEY" :: .mark '(' :: (d.nameTokens t.primaryKey ++ .mark ')' ::
      .word "VALUES" :: .mark '(' :: (valueTokens values ++ .mark ')' :: []))))).map _ = _
  rw [Manipulation.merge?, target?_tokens]
  change (Manipulation.cut? _ _ >>= _).map _ = _
  rw [cut?_nameTokens]
  change (Manipulation.row? _ _ >>= _).map _ = _
  rw [row?_tokens _ _ hlength]
  change (Manipulation.names? _ _ >>= _).map _ = _
  rw [names?_nameTokens]
  rfl

theorem spells_duplicateAssignments (hothers : t.otherColumns.map (·.name) = t.otherNames)
    (hkey : t.primaryKey ≠ []) :
    Spells (d.duplicateUpdates t).atoms
      (listed (.mark ',') (t.duplicateAssignments.map d.duplicateTokens)) := by
  by_cases hnone : t.otherNames = []
  · obtain ⟨name, names, hname⟩ := List.exists_cons_of_ne_nil hkey
    have hcolumns : t.otherColumns = [] := List.map_eq_nil_iff.mp (hothers.trans hnone)
    rw [Table.duplicateAssignments, if_pos hnone, hname]
    exact spells_duplicateUpdates_key hd hcolumns hname
  · rw [Table.duplicateAssignments, if_neg hnone]
    exact spells_duplicateUpdates hd hothers hnone

theorem manipulation?_onDuplicateKey {values : List Value}
    (hothers : t.otherColumns.map (·.name) = t.otherNames) (hkey : t.primaryKey ≠ [])
    (htidy : (d.insertAll t values ++ Sql.text " ON DUPLICATE KEY UPDATE " ++
      d.duplicateUpdates t).Tidy) :
    d.manipulation? (d.statement (d.insertAll t values ++ Sql.text " ON DUPLICATE KEY UPDATE " ++
      d.duplicateUpdates t)) =
      some (.insert
        { table := t.path, row := t.names.zip values, taken := .updated t.duplicateAssignments }) := by
  have hinsert : Delimited (chars "INSERT INTO ") [.word "INSERT", .word "INTO"] := fun _ => rfl
  have hon : Delimited (chars " ON DUPLICATE KEY UPDATE ")
      [.word "ON", .word "DUPLICATE", .word "KEY", .word "UPDATE"] := fun _ => rfl
  have hrow : Delimited (d.insertAll t values).atoms _ := delimited_row hd hinsert
  have hall := (hrow.append hon).append_spells (spells_duplicateAssignments hd hothers hkey)
  simp only [List.append_assoc, List.cons_append, List.nil_append] at hall
  rw [manipulation?_statement htidy hall.read_eq
    (by simp)]
  change (Manipulation.insertion? _ (d.rowTokens t _ ++ _)).map _ = _
  rw [insertion?_rowTokens d t _ (taken?_duplicate d t.duplicateAssignments), Table.map_zip_columns]
  rfl

theorem manipulation?_onConflict {values : List Value}
    (hothers : t.otherColumns.map (·.name) = t.otherNames)
    (htidy : (d.insertAll t values ++ Sql.text " ON CONFLICT (" ++ d.names t.primaryKey ++
      Sql.text ")" ++ d.conflictAction t).Tidy) :
    d.manipulation? (d.statement (d.insertAll t values ++ Sql.text " ON CONFLICT (" ++
      d.names t.primaryKey ++ Sql.text ")" ++ d.conflictAction t)) =
      some (.insert
        { table := t.path, row := t.names.zip values, key := t.primaryKey,
          taken := .updated t.insertedAssignments }) := by
  have hinsert : Delimited (chars "INSERT INTO ") [.word "INSERT", .word "INTO"] := fun _ => rfl
  have hon : Delimited (chars " ON CONFLICT (") [.word "ON", .word "CONFLICT", .mark '('] :=
    fun _ => rfl
  have hclose : Delimited (chars ")") [.mark ')'] := fun _ => rfl
  have hrow : Delimited (d.insertAll t values).atoms _ := delimited_row hd hinsert
  have hkey := (hrow.append hon).append_spells (spells_names hd t.primaryKey)
  have hall := (hkey.append_delimited hclose rfl rfl) (d.conflictAction t).atoms
  rw [read_conflictAction hd hothers] at hall
  simp only [List.append_assoc, List.cons_append, List.nil_append] at hall
  rw [manipulation?_statement htidy hall
    (by simp)]
  change (Manipulation.insertion? _ (d.rowTokens t _ ++ _)).map _ = _
  rw [insertion?_rowTokens d t _ (taken?_conflict d t), Table.map_zip_columns]
  rfl

end Statements

end Dialect

end RecordMapper
