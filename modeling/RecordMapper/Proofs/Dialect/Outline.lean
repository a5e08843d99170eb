import RecordMapper.Dialect.Manipulation
import RecordMapper.Proofs.Result
import RecordMapper.Proofs.Statement.Outline

/-!
# Statements of rows do not depend on the values

Two rows of a table are alike if they leave the same columns to the database. For such rows every
dialect writes statements with the same outline.
-/

set_option autoImplicit false

namespace RecordMapper

/-- The rows have the same length and agree in every column on whether its value is to be
generated. -/
structure Table.RowsAlike (t : Table) (values values' : List Value) : Prop where
  length : values.length = values'.length
  generated : ∀ (i : Nat) (c : Column) (v v' : Value), t.columns[i]? = some c →
    values[i]? = some v → values'[i]? = some v' → c.isGenerated v = c.isGenerated v'

abbrev Result.outline (result : Result Statement) : Result Statement :=
  result.map Statement.outline

/-- The cells that are chosen have the same columns in both rows. -/
theorem columns_of_cells (columns : List Column) {values values' : List Value}
    (chosen : Column × Value → Bool) (hlength : values.length = values'.length)
    (h : ∀ (i : Nat) (c : Column) (v v' : Value), columns[i]? = some c → values[i]? = some v →
      values'[i]? = some v' → chosen (c, v) = chosen (c, v')) :
    ((columns.zip values).filter chosen).map (·.1) =
      ((columns.zip values').filter chosen).map (·.1) := by
  induction columns generalizing values values' with
  | nil => rfl
  | cons c rest ih =>
    cases values with
    | nil =>
      cases values' with
      | nil => rfl
      | cons v' others' => cases hlength
    | cons v others =>
      cases values' with
      | nil => cases hlength
      | cons v' others' =>
        have hchosen := h 0 c v v' rfl rfl rfl
        have hrest := ih (Nat.succ.inj hlength) fun i => h (i + 1)
        rw [List.zip_cons_cons, List.zip_cons_cons, List.filter_cons, List.filter_cons, hchosen]
        split
        · rw [List.map_cons, List.map_cons, hrest]
        · exact hrest

namespace Dialect
variable {d : Dialect} {t : Table}

@[simp] theorem outline_statement (body : Sql) :
    (d.statement body).outline = d.statement body.outline :=
  rfl

@[simp] theorem outline_names (names : List String) : (d.names names).outline = d.names names := by
  rw [Dialect.names, Sql.outline_commas, List.map_map]
  rfl

/-- Of the values of a row only their columns are left. -/
@[simp] theorem outline_valuesClause (cells : List (Column × Value)) :
    (d.valuesClause t cells).outline =
      d.valuesClause t ((cells.map (·.1)).map fun c => (c, Value.null)) := by
  simp only [valuesClause, Sql.outline_append, Sql.outline_text, outline_names, Sql.outline_commas,
    List.map_map]
  rfl

theorem outline_assignments_congr {cells cells' : List (Column × Value)}
    (h : cells.map (·.1) = cells'.map (·.1)) :
    (Sql.commas (cells.map fun cell => d.assignment cell.1.name cell.2)).outline =
      (Sql.commas (cells'.map fun cell => d.assignment cell.1.name cell.2)).outline := by
  have hassignments (cells : List (Column × Value)) :
      (Sql.commas (cells.map fun cell => d.assignment cell.1.name cell.2)).outline =
        Sql.commas ((cells.map (·.1)).map fun c => d.assignment c.name .null) := by
    rw [Sql.outline_commas, List.map_map, List.map_map]
    rfl
  rw [hassignments, hassignments, h]

section Rows
variable {values values' : List Value} (h : t.RowsAlike values values')
include h

theorem checkArity_congr : t.checkArity values = t.checkArity values' := by
  rw [Table.checkArity, Table.checkArity, h.length]

theorem outline_values_congr : (d.valuesClause t (t.columns.zip values)).outline =
    (d.valuesClause t (t.columns.zip values')).outline := by
  have hcells := columns_of_cells t.columns (fun _ => true) h.length
    fun _ _ _ _ _ _ _ => rfl
  rw [List.filter_eq_self.mpr fun _ _ => rfl, List.filter_eq_self.mpr fun _ _ => rfl] at hcells
  rw [outline_valuesClause, outline_valuesClause, hcells]

theorem outline_insertAll_congr :
    (d.insertAll t values).outline = (d.insertAll t values').outline := by
  rw [insertAll, insertAll, Sql.outline_append, Sql.outline_append, outline_values_congr h]

theorem outline_keyCondition_congr :
    (d.keyCondition t values).map Sql.outline = (d.keyCondition t values').map Sql.outline := by
  unfold keyCondition
  refine Result.map_bind_congr (g := List.map Sql.outline) (Result.map_mapM_congr ?_) ?_
  · intro key _
    cases t.columnIndex? key with
    | none => rfl
    | some i =>
      rw [Option.bind_some, Option.bind_some]
      by_cases hi : i < values.length
      · rw [List.getElem?_eq_getElem hi, List.getElem?_eq_getElem (h.length ▸ hi)]
        rfl
      · rw [List.getElem?_eq_none (Nat.le_of_not_lt hi),
          List.getElem?_eq_none (h.length ▸ Nat.le_of_not_lt hi)]
  · intro tests tests' htests
    change Except.ok _ = Except.ok _
    rw [Sql.outline_append, Sql.outline_append, Sql.outline_separated, Sql.outline_separated,
      htests]

theorem outline_insert_congr : (d.insert t values).outline = (d.insert t values').outline := by
  have hcells := columns_of_cells t.columns (fun cell => !cell.1.isGenerated cell.2) h.length
    fun i c v v' hc hv hv' => by rw [h.generated i c v v' hc hv hv']
  unfold insert
  rw [checkArity_congr h]
  refine Result.map_bind_right_congr _ fun _ => ?_
  change Except.ok _ = Except.ok _
  rw [outline_statement, outline_statement, Sql.outline_append,
    Sql.outline_append, outline_valuesClause, outline_valuesClause, hcells]

theorem outline_delete_congr : (d.delete t values).outline = (d.delete t values').outline := by
  unfold delete
  rw [checkArity_congr h]
  refine Result.map_bind_right_congr _ fun _ => ?_
  refine Result.map_bind_right_congr _ fun _ => ?_
  refine Result.map_bind_congr (outline_keyCondition_congr h) ?_
  intro condition condition' hcondition
  change Except.ok _ = Except.ok _
  rw [outline_statement, outline_statement, Sql.outline_append,
    Sql.outline_append, hcondition]

theorem outline_update_congr : (d.update t values).outline = (d.update t values').outline := by
  have hcells := columns_of_cells t.columns (fun cell => !t.isPrimaryKey cell.1.name) h.length
    fun _ _ _ _ _ _ _ => rfl
  unfold update
  rw [checkArity_congr h]
  refine Result.map_bind_right_congr _ fun _ => ?_
  refine Result.map_bind_right_congr _ fun _ => ?_
  have hempty := congrArg List.isEmpty hcells
  rw [List.isEmpty_map, List.isEmpty_map] at hempty
  simp only [hempty]
  split
  · rfl
  · refine Result.map_bind_congr (outline_keyCondition_congr h) ?_
    intro condition condition' hcondition
    have hassigned := outline_assignments_congr (d := d) hcells
    change Except.ok _ = Except.ok _
    rw [outline_statement, outline_statement, Sql.outline_append,
      Sql.outline_append, Sql.outline_append, Sql.outline_append, hcondition]
    exact congrArg (fun assigned => Except.ok (d.statement (_ ++ assigned ++ _))) hassigned

theorem outline_merge_congr : (d.merge t values).map (List.map Statement.outline) =
    (d.merge t values').map (List.map Statement.outline) := by
  have hall := outline_insertAll_congr (d := d) h
  have hvalues (values : List Value) : (Sql.commas (values.map Sql.param)).outline =
      Sql.commas (List.replicate values.length (Sql.param .null)) := by
    rw [Sql.outline_commas, List.map_map, List.map_eq_replicate_iff.mpr]
    intro v _
    rfl
  have hstatement {body body' : Sql} (hbody : body.outline = body'.outline) :
      (d.statement body).outline = (d.statement body').outline := by
    rw [outline_statement, outline_statement, hbody]
  unfold merge
  rw [checkArity_congr h]
  cases d.mergeForm with
  | unsupported => rfl
  | keyed =>
    refine Result.map_bind_right_congr _ fun _ => Result.map_bind_right_congr _ fun _ => ?_
    refine congrArg (fun s => Except.ok [s]) (hstatement ?_)
    simp [hvalues, h.length]
  | onDuplicateKey =>
    refine Result.map_bind_right_congr _ fun _ => Result.map_bind_right_congr _ fun _ => ?_
    refine congrArg (fun s => Except.ok [s]) (hstatement ?_)
    simp [hall]
  | onConflict =>
    refine Result.map_bind_right_congr _ fun _ => Result.map_bind_right_congr _ fun _ => ?_
    refine congrArg (fun s => Except.ok [s]) (hstatement ?_)
    simp [hall]
  | orReplace =>
    refine Result.map_bind_right_congr _ fun _ => Result.map_bind_right_congr _ fun _ => ?_
    refine congrArg (fun s => Except.ok [s]) (hstatement ?_)
    rw [Sql.outline_append, Sql.outline_append, outline_values_congr h]
  | deleteInsert =>
    refine Result.map_bind_right_congr _ fun _ => Result.map_bind_right_congr _ fun _ => ?_
    refine Result.map_bind_congr (outline_delete_congr h) ?_
    intro deletion deletion' hdeletion
    change Except.ok [deletion.outline, (d.statement (d.insertAll t values)).outline] =
      Except.ok [deletion'.outline, (d.statement (d.insertAll t values')).outline]
    rw [hdeletion, hstatement hall]

end Rows

end Dialect

end RecordMapper
