import RecordMapper.Proofs.Dialect.Tidy
import RecordMapper.Proofs.Statement.Reading
import RecordMapper.Proofs.Table.Consistency

/-!
# The tokens that dialects write

Each piece of a statement that writes rows, with the tokens it is read as. Names come back from
their quotes whatever they contain.
-/

set_option autoImplicit false

namespace RecordMapper

open Sql Token

namespace Table

/-- The parts of the table's name. -/
def path (t : Table) : List String := t.schema.toList ++ [t.name]

def otherNames (t : Table) : List String := t.names.filter (· ∉ t.primaryKey)

/-- All columns outside the key take the values of the row that was to be inserted. -/
def insertedAssignments (t : Table) : List (String × Source) :=
  t.otherNames.map fun name => (name, .inserted name)

end Table

namespace Dialect
variable (d : Dialect)

def nameToken (name : String) : Token := .quoted d.identifierMark name

def nameTokens (names : List String) : List Token :=
  listed (.mark ',') (names.map fun name => [d.nameToken name])

def pathTokens (t : Table) : List Token :=
  listed (.mark '.') (t.path.map fun name => [d.nameToken name])

def valueTokens (values : List Value) : List Token :=
  listed (.mark ',') (values.map fun v => [.value v])

def cellTokens (cell : String × Value) : List Token :=
  [d.nameToken cell.1, .mark '=', .value cell.2]

def conditionTokens (condition : NamedValues) : List Token :=
  .word "WHERE" :: listed (.word "AND") (condition.map d.cellTokens)

/-- The columns and values of a row behind the name of its table. -/
def rowTokens (t : Table) (row : NamedValues) : List Token :=
  d.pathTokens t ++ [.mark '('] ++ d.nameTokens (row.map (·.1)) ++
    [.mark ')', .word "VALUES", .mark '('] ++ valueTokens (row.map (·.2)) ++ [.mark ')']

/-- What a column is assigned when the row is there already, in the form behind `ON DUPLICATE KEY`. -/
def duplicateTokens (assignment : String × Source) : List Token :=
  match assignment with
  | (name, .inserted column) =>
    [d.nameToken name, .mark '=', .word "VALUES", .mark '(', d.nameToken column, .mark ')']
  | (name, .present column) => [d.nameToken name, .mark '=', d.nameToken column]

/-- The same in the form behind `ON CONFLICT`. -/
def conflictTokens (assignment : String × Source) : List Token :=
  match assignment with
  | (name, .inserted column) =>
    [d.nameToken name, .mark '=', .word "EXCLUDED", .mark '.', d.nameToken column]
  | (name, .present column) => [d.nameToken name, .mark '=', d.nameToken column]

/-- The SQL that finds a row by its key. -/
def condition (key : NamedValues) : Sql :=
  Sql.text " WHERE " ++ separated " AND " (key.map fun cell => d.assignment cell.1 cell.2)

theorem spells_values (values : List Value) :
    Spells (commas (values.map param)).atoms (valueTokens values) :=
  Scanner.Spells.separated (fun _ => rfl) rfl rfl fun v _ => (Scanner.Delimited.param v).spells

section Spelling
variable {d} (hd : d.Orderly)
include hd

theorem spells_quote (name : String) : Spells (chars (d.quote name)) [d.nameToken name] :=
  .quoted hd.mark name

theorem spells_names (names : List String) :
    Spells (d.names names).atoms (d.nameTokens names) := by
  refine Scanner.Spells.separated (fun _ => rfl) rfl rfl fun name _ => ?_
  rw [atoms_text]
  exact spells_quote hd name

theorem spells_tableName (t : Table) : Spells (chars (d.tableName t)) (d.pathTokens t) := by
  unfold tableName pathTokens Table.path
  cases t.schema with
  | none => exact spells_quote hd t.name
  | some schema =>
    have hpoint : Delimited (chars ".") [.mark '.'] := fun _ => rfl
    have hschema := (spells_quote hd schema).append_delimited hpoint rfl rfl
    rw [chars_append, chars_append]
    exact hschema.append_spells (spells_quote hd t.name)

theorem delimited_assignment (cell : String × Value) :
    Delimited (d.assignment cell.1 cell.2).atoms (d.cellTokens cell) := by
  have hequals : Delimited (chars " = ") [.mark '='] := fun _ => rfl
  have hname := (spells_quote hd cell.1).append_delimited hequals rfl rfl
  rw [assignment, atoms_append, atoms_text, chars_append]
  exact hname.append (.param cell.2)

theorem delimited_valuesClause (t : Table) (cells : List (Column × Value)) :
    Delimited (d.valuesClause t cells).atoms
      (d.rowTokens t (cells.map fun cell => (cell.1.name, cell.2))) := by
  have hopen : Delimited (chars " (") [.mark '('] := fun _ => rfl
  have hbetween : Delimited (chars ") VALUES (") [.mark ')', .word "VALUES", .mark '('] :=
    fun _ => rfl
  have hclose : Delimited (chars ")") [.mark ')'] := fun _ => rfl
  have htable := (spells_tableName hd t).append_delimited hopen rfl rfl
  have hnames := htable.append_spells (spells_names hd (cells.map (·.1.name)))
  have hcolumns := hnames.append_delimited hbetween rfl rfl
  have hvalues := hcolumns.append_spells (spells_values (cells.map (·.2)))
  have hall := hvalues.append_delimited hclose rfl rfl
  rw [valuesClause, atoms_append, atoms_append, atoms_append, atoms_append, atoms_text, atoms_text,
    atoms_text, chars_append, rowTokens, List.map_map, List.map_map]
  rw [List.map_map] at hall
  exact hall

theorem spells_assignments (cells : List (Column × Value)) :
    Spells (commas (cells.map fun cell => d.assignment cell.1.name cell.2)).atoms
      (listed (.mark ',')
        ((cells.map fun cell => (cell.1.name, cell.2)).map d.cellTokens)) := by
  rw [List.map_map]
  exact Scanner.Spells.separated (fun _ => rfl) rfl rfl fun cell _ =>
    (delimited_assignment hd (cell.1.name, cell.2)).spells

theorem spells_condition (key : NamedValues) :
    Spells (d.condition key).atoms (d.conditionTokens key) := by
  have hwhere : Delimited (chars " WHERE ") [.word "WHERE"] := fun _ => rfl
  have htests : Spells (separated " AND " (key.map fun cell =>
      d.assignment cell.1 cell.2)).atoms (listed (.word "AND") (key.map d.cellTokens)) :=
    Scanner.Spells.separated (fun _ => rfl) rfl rfl fun cell _ =>
      (delimited_assignment hd cell).spells
  rw [condition, atoms_append, atoms_text]
  exact hwhere.append_spells htests

theorem spells_duplicateUpdates {t : Table}
    (hothers : t.otherColumns.map (·.name) = t.otherNames) (hne : t.otherNames ≠ []) :
    Spells (d.duplicateUpdates t).atoms
      (listed (.mark ',') (t.insertedAssignments.map d.duplicateTokens)) := by
  have hvalues : Delimited (chars " = VALUES(") [.mark '=', .word "VALUES", .mark '('] :=
    fun _ => rfl
  have hclose : Delimited (chars ")") [.mark ')'] := fun _ => rfl
  have hitem (c : Column) : Spells
      (Sql.text (d.quote c.name ++ " = VALUES(" ++ d.quote c.name ++ ")")).atoms
      (d.duplicateTokens (c.name, .inserted c.name)) := by
    have hname := spells_quote hd c.name
    have hfirst := (hname.append_delimited hvalues rfl rfl).append_spells hname
    rw [atoms_text, chars_append, chars_append, chars_append]
    exact (hfirst.append_delimited hclose rfl rfl).spells
  have hcolumns : t.otherColumns ≠ [] := by
    rintro hnil
    rw [hnil] at hothers
    exact hne hothers.symm
  rw [Table.insertedAssignments, ← hothers, List.map_map, List.map_map, duplicateUpdates]
  simp only [List.isEmpty_map, List.isEmpty_iff, hcolumns, ↓reduceIte]
  exact Scanner.Spells.separated (fun _ => rfl) rfl rfl fun c _ => hitem c

/-- Without other columns the first key column is assigned to itself. -/
theorem spells_duplicateUpdates_key {t : Table} {name : String} {names : List String}
    (hcolumns : t.otherColumns = []) (hkey : t.primaryKey = name :: names) :
    Spells (d.duplicateUpdates t).atoms
      (listed (.mark ',') ([(name, Source.present name)].map d.duplicateTokens)) := by
  have hequals : Delimited (chars " = ") [.mark '='] := fun _ => rfl
  have hname := spells_quote hd name
  rw [duplicateUpdates, hcolumns, hkey, List.map_singleton, listed, List.intercalate_singleton]
  change Spells (Sql.text (d.quote name ++ " = " ++ d.quote name)).atoms _
  rw [atoms_text, chars_append, chars_append]
  exact (hname.append_delimited hequals rfl rfl).append_spells hname

/-- What is done about a conflict is the end of the statement. -/
def conflictActionTokens (d : Dialect) (t : Table) : List Token :=
  if t.otherNames = [] then [.word "DO", .word "NOTHING"]
  else .word "DO" :: .word "UPDATE" :: .word "SET" ::
    listed (.mark ',') (t.insertedAssignments.map d.conflictTokens)

theorem read_conflictAction {t : Table} (hothers : t.otherColumns.map (·.name) = t.otherNames) :
    scanner.read .outside (d.conflictAction t).atoms = d.conflictActionTokens t := by
  have hset : Delimited (chars " DO UPDATE SET ") [.word "DO", .word "UPDATE", .word "SET"] :=
    fun _ => rfl
  have hexcluded : Delimited (chars " = EXCLUDED.") [.mark '=', .word "EXCLUDED", .mark '.'] :=
    fun _ => rfl
  have hitem (c : Column) : Spells
      (Sql.text (d.quote c.name ++ " = EXCLUDED." ++ d.quote c.name)).atoms
      (d.conflictTokens (c.name, .inserted c.name)) := by
    have hname := spells_quote hd c.name
    rw [atoms_text, chars_append, chars_append]
    exact (hname.append_delimited hexcluded rfl rfl).append_spells hname
  rw [conflictActionTokens, conflictAction, Table.insertedAssignments, ← hothers]
  simp only [List.isEmpty_map, List.isEmpty_iff, List.map_eq_nil_iff]
  split
  · rfl
  · rw [List.map_map, List.map_map, atoms_append, atoms_text]
    refine (hset.append_spells ?_).read_eq
    exact Scanner.Spells.separated (fun _ => rfl) rfl rfl fun c _ => hitem c

end Spelling

section Reading

open Manipulation

@[simp] theorem name?_nameToken (name : String) :
    name? d.identifierMark [d.nameToken name] = some name :=
  if_pos rfl

@[simp] theorem names?_nameTokens (names : List String) :
    names? d.identifierMark (d.nameTokens names) = some names :=
  items?_listed (name?_nameToken d) (by simp [nameToken]) (by simp) names

@[simp] theorem path?_pathTokens (t : Table) :
    path? d.identifierMark (d.pathTokens t) = some t.path :=
  items?_listed (name?_nameToken d) (by simp [nameToken]) (by simp) t.path

@[simp] theorem items?_valueTokens (values : List Value) :
    items? (.mark ',') value? (valueTokens values) = some values := by
  have hread : ∀ v, value? [.value v] = some v := fun _ => rfl
  exact items?_listed hread (by simp) (by simp) values

@[simp] theorem cell?_cellTokens (cell : String × Value) :
    cell? d.identifierMark (d.cellTokens cell) = some cell := by
  rw [cellTokens, cell?, name?_nameToken]
  rfl

theorem items?_cellTokens {separator : Token} (hseparator : ∀ cell, separator ∉ d.cellTokens cell)
    (cells : NamedValues) :
    items? separator (cell? d.identifierMark) (listed separator (cells.map d.cellTokens)) =
      some cells :=
  items?_listed (cell?_cellTokens d) hseparator (by simp [cellTokens]) cells

theorem cut?_pathTokens {close : Token} (hclose : ∀ name, close ≠ d.nameToken name)
    (hpoint : close ≠ .mark '.') (t : Table) (rest : List Token) :
    cut? close (d.pathTokens t ++ close :: rest) = some (d.pathTokens t, rest) :=
  cut?_append (not_mem_listed hpoint fun name h => hclose name (List.mem_singleton.mp h)) rest

@[simp] theorem cut?_nameTokens (names : List String) (rest : List Token) :
    cut? (.mark ')') (d.nameTokens names ++ .mark ')' :: rest) =
      some (d.nameTokens names, rest) :=
  cut?_append (not_mem_listed (by decide) (by simp [nameToken])) rest

@[simp] theorem cut?_cellTokens (cells : NamedValues) (rest : List Token) :
    cut? (.word "WHERE") (listed (.mark ',') (cells.map d.cellTokens) ++ .word "WHERE" :: rest) =
      some (listed (.mark ',') (cells.map d.cellTokens), rest) :=
  cut?_append (not_mem_listed (by simp) (by simp [cellTokens, nameToken])) rest

@[simp] theorem target?_tokens (t : Table) (columns : List String) (rest : List Token) :
    target? d.identifierMark
      (d.pathTokens t ++ .mark '(' :: (d.nameTokens columns ++ .mark ')' :: rest)) =
      some (t.path, columns, rest) := by
  rw [target?, cut?_pathTokens d (by simp [nameToken]) (by decide)]
  change (cut? _ _ >>= _) = _
  rw [cut?_nameTokens]
  change (path? _ _ >>= _) = _
  rw [path?_pathTokens]
  change (names? _ _ >>= _) = _
  rw [names?_nameTokens]
  rfl

theorem row?_tokens (columns : List String) (values : List Value)
    (hlength : columns.length = values.length) (rest : List Token) :
    row? columns (.word "VALUES" :: .mark '(' :: (valueTokens values ++ .mark ')' :: rest)) =
      some (columns.zip values, rest) := by
  have hcut : cut? (.mark ')') (valueTokens values ++ .mark ')' :: rest) =
      some (valueTokens values, rest) :=
    cut?_append (not_mem_listed (by decide) (by simp)) rest
  rw [row?, hcut]
  change (items? _ _ _ >>= _) = _
  rw [items?_valueTokens]
  exact if_pos hlength

@[simp] theorem assignments?_tokens (cells : NamedValues) :
    items? (.mark ',') (cell? d.identifierMark) (listed (.mark ',') (cells.map d.cellTokens)) =
      some cells :=
  items?_cellTokens d (by simp [cellTokens, nameToken]) cells

@[simp] theorem condition?_tokens (condition : NamedValues) :
    condition? d.identifierMark (listed (.word "AND") (condition.map d.cellTokens)) =
      some condition :=
  items?_cellTokens d (by simp [cellTokens, nameToken]) condition

@[simp] theorem assignment?_duplicateTokens (assignment : String × Source) :
    assignment? d.identifierMark (d.duplicateTokens assignment) = some assignment := by
  obtain ⟨name, column | column⟩ := assignment
  · rw [duplicateTokens, assignment?, name?_nameToken, name?_nameToken]
    rfl
  · change (name? _ [d.nameToken name] >>= fun _ => name? _ [d.nameToken column] >>= _) = _
    rw [name?_nameToken, name?_nameToken]
    rfl

@[simp] theorem assignment?_conflictTokens (assignment : String × Source) :
    assignment? d.identifierMark (d.conflictTokens assignment) = some assignment := by
  obtain ⟨name, column | column⟩ := assignment
  · rw [conflictTokens, assignment?, name?_nameToken, name?_nameToken]
    rfl
  · change (name? _ [d.nameToken name] >>= fun _ => name? _ [d.nameToken column] >>= _) = _
    rw [name?_nameToken, name?_nameToken]
    rfl

@[simp] theorem duplicateAssignments?_tokens (assignments : List (String × Source)) :
    items? (.mark ',') (assignment? d.identifierMark)
      (listed (.mark ',') (assignments.map d.duplicateTokens)) = some assignments := by
  refine items?_listed (assignment?_duplicateTokens d) ?_ ?_ assignments
  · rintro ⟨name, column | column⟩ <;> simp [duplicateTokens, nameToken]
  · rintro ⟨name, column | column⟩ <;> simp [duplicateTokens]

@[simp] theorem conflictAssignments?_tokens (assignments : List (String × Source)) :
    items? (.mark ',') (assignment? d.identifierMark)
      (listed (.mark ',') (assignments.map d.conflictTokens)) = some assignments := by
  refine items?_listed (assignment?_conflictTokens d) ?_ ?_ assignments
  · rintro ⟨name, column | column⟩ <;> simp [conflictTokens, nameToken]
  · rintro ⟨name, column | column⟩ <;> simp [conflictTokens]

@[simp] theorem taken?_duplicate (assignments : List (String × Source)) :
    taken? d.identifierMark (.word "ON" :: .word "DUPLICATE" :: .word "KEY" :: .word "UPDATE" ::
      listed (.mark ',') (assignments.map d.duplicateTokens)) = some ([], .updated assignments) := by
  rw [taken?, duplicateAssignments?_tokens]
  rfl

@[simp] theorem taken?_conflict (t : Table) :
    taken? d.identifierMark (.word "ON" :: .word "CONFLICT" :: .mark '(' ::
      (d.nameTokens t.primaryKey ++ .mark ')' :: d.conflictActionTokens t)) =
      some (t.primaryKey, .updated t.insertedAssignments) := by
  rw [taken?, cut?_nameTokens]
  change (names? _ _ >>= _) = _
  rw [names?_nameTokens]
  by_cases hnone : t.otherNames = []
  · rw [conflictActionTokens, if_pos hnone, Table.insertedAssignments, hnone]
    rfl
  · rw [conflictActionTokens, if_neg hnone]
    change (items? _ _ _ >>= _) = _
    rw [conflictAssignments?_tokens]
    rfl

end Reading

end Dialect

end RecordMapper
