import RecordMapper.Proofs.Table.Consistency
import RecordMapper.Table.Refinement

/-!
# What is seen of the nullability of key columns

Sealing takes the nullability from every column of the key, and every column that is flagged gets
into the key or keeps the mapping from being sealed. So what had been said of the nullability of
flagged columns before makes no difference, neither to refinements nor to sealing.
-/

set_option autoImplicit false

namespace RecordMapper

/-- The column, not nullable if it is flagged. -/
def Column.settled (c : Column) : Column := { c with nullable := c.nullable && !c.primaryKey }

theorem Column.settled_of_not_flagged {c : Column} (h : c.primaryKey = false) : c.settled = c := by
  rw [settled, h, Bool.not_false, Bool.and_true, ← h]

def FieldMapping.settled (f : FieldMapping) : FieldMapping := { f with column := f.column.settled }

def Mapping.settled (m : Mapping) : Mapping := { m with fields := m.fields.map (·.settled) }

namespace Mapping
variable {m : Mapping}

@[simp] theorem getElem?_settled (m : Mapping) (i : Nat) :
    m.settled.fields[i]? = (m.fields[i]?).map (·.settled) := List.getElem?_map

@[simp] theorem nameAt_settled (m : Mapping) (i : Nat) : m.settled.nameAt i = m.nameAt i := by
  rw [nameAt, nameAt, getElem?_settled, Option.map_map]
  rfl

end Mapping

namespace RefinementScope
variable (s : RefinementScope) (m : Mapping)

@[simp] theorem position_settled (r : Reference) : s.position m.settled r = s.position m r := rfl

@[simp] theorem columnNames_settled (rs : List Reference) :
    s.columnNames m.settled rs = s.columnNames m rs := by
  unfold columnNames
  congr 1
  funext r
  rw [position_settled]
  congr 1
  funext i
  exact m.nameAt_settled i

theorem changeColumn_settled (r : Reference) {change : Column → Column}
    (hchange : ∀ c, (change c.settled).settled = (change c).settled) :
    (s.changeColumn m.settled r change).map Mapping.settled =
      (s.changeColumn m r change).map Mapping.settled := by
  rw [changeColumn, changeColumn, position_settled]
  cases s.position m r with
  | error e => rfl
  | ok i =>
    refine congrArg Except.ok (congrArg (Mapping.mk m.table) ?_)
    apply List.ext_getElem?
    intro j
    rw [List.getElem?_map, List.getElem?_map, List.getElem?_modify, List.getElem?_modify,
      Mapping.getElem?_settled]
    cases m.fields[j]? with
    | none => rfl
    | some f =>
      by_cases hj : i = j
      · simp [hj, FieldMapping.settled, hchange]
      · simp [hj, FieldMapping.settled, Column.settled]

/-- A refinement does not look at the nullability of a flagged column, and does not bring back what
it was. -/
theorem apply_settled (r : Refinement) :
    (s.apply m.settled r).map Mapping.settled = (s.apply m r).map Mapping.settled := by
  have hidem (t : Table) : Mapping.settled ⟨t, m.settled.fields⟩ = Mapping.settled ⟨t, m.fields⟩ := by
    refine congrArg (Mapping.mk t) ?_
    change (m.fields.map (·.settled)).map (·.settled) = m.fields.map (·.settled)
    simp [FieldMapping.settled, Column.settled]
  cases r with
  | tableName | schemaName | version | memoryTable | createIfMissing =>
    exact congrArg Except.ok (hidem _)
  | primaryKey fields | index _ _ fields =>
    rw [apply, apply, columnNames_settled]
    cases s.columnNames m fields with
    | error e => rfl
    | ok names => exact congrArg Except.ok (hidem _)
  | length | scale | trim | nullable | autoIncrement | columnName =>
    rw [apply, apply]
    apply changeColumn_settled
    intro c
    simp [Column.settled]

theorem refine_settled (rs : List Refinement) :
    (rs.foldlM s.apply m.settled).map Mapping.settled = (rs.foldlM s.apply m).map Mapping.settled := by
  induction rs generalizing m with
  | nil => exact s.apply_settled m (.tableName m.table.name)
  | cons r rest ih =>
    rw [List.foldlM_cons, List.foldlM_cons]
    apply Result.map_bind_congr (s.apply_settled m r)
    intro next next' hnext
    rw [← ih next, ← ih next', hnext]

end RefinementScope

namespace Mapping

@[simp] theorem table_foldl_markKey (positions : List Nat) (m : Mapping) :
    (positions.foldl markKey m).table = m.table := by
  induction positions generalizing m with
  | nil => rfl
  | cons i rest ih => exact ih (m.markKey i)

/-- Where every flagged column is in the key, the same becomes of the fields. -/
theorem foldl_markKey_settled {m : Mapping} {positions : List Nat}
    (hflagged : ∀ i f, m.fields[i]? = some f → f.column.primaryKey = true → i ∈ positions) :
    (positions.foldl markKey m.settled.withColumns).fields =
      (positions.foldl markKey m.withColumns).fields := by
  apply List.ext_getElem?
  intro i
  rw [getElem?_foldl_markKey, getElem?_foldl_markKey]
  change ((m.fields.map (·.settled))[i]?).map _ = (m.fields[i]?).map _
  rw [List.getElem?_map, Option.map_map]
  cases hf : m.fields[i]? with
  | none => rfl
  | some f =>
    by_cases hi : i ∈ positions
    · simp [hi, FieldMapping.settled, Column.settled, FieldMapping.keyed]
    · have hplain : f.column.primaryKey = false := by
        cases hflag : f.column.primaryKey with
        | true => exact absurd (hflagged i f hf hflag) hi
        | false => rfl
      simp [hi, FieldMapping.settled, Column.settled_of_not_flagged hplain]

variable (m : Mapping)

@[simp] theorem columnIndex?_settled (name : String) :
    m.settled.withColumns.table.columnIndex? name = m.withColumns.table.columnIndex? name := by
  have hcolumns : m.settled.withColumns.table.columns =
      m.withColumns.table.columns.map Column.settled := by
    change (m.fields.map (·.settled)).map (·.column) = (m.fields.map (·.column)).map Column.settled
    rw [List.map_map, List.map_map]
    rfl
  rw [Table.columnIndex?, hcolumns, List.findIdx?_map, List.findIdx?_map]
  rfl

@[simp] theorem names_settled :
    m.settled.fields.map (·.column.name) = m.fields.map (·.column.name) := by
  change (m.fields.map (·.settled)).map _ = _
  rw [List.map_map]
  rfl

@[simp] theorem flaggedKey_settled :
    m.settled.withColumns.flaggedKey = m.withColumns.flaggedKey := by
  change ((m.fields.map (·.settled)).filter _).map _ = _
  rw [List.filter_map, List.map_map]
  rfl

@[simp] theorem unlisted?_settled : m.settled.withColumns.unlisted? = m.withColumns.unlisted? := by
  have hlisted : m.settled.withColumns.table.primaryKey.map m.settled.withColumns.table.columnIndex? =
      m.withColumns.table.primaryKey.map m.withColumns.table.columnIndex? :=
    List.map_congr_left fun name _ => m.columnIndex?_settled name
  unfold unlisted?
  simp only [hlisted]
  change (List.map _ (List.filter _ (m.fields.map (·.settled)).zipIdx)).head? = _
  rw [List.zipIdx_map, List.filter_map, List.map_map]
  rfl

@[simp] theorem positions_settled (missing : String → Error) (names : List String) :
    m.settled.withColumns.positions missing names = m.withColumns.positions missing names := by
  unfold positions
  congr 1
  funext name
  rw [columnIndex?_settled]

@[simp] theorem completeIndex_settled (typeName : String) (index : Index) (n : Nat) :
    m.settled.withColumns.completeIndex typeName index n =
      m.withColumns.completeIndex typeName index n := by
  have hname : m.settled.withColumns.nameAt = m.withColumns.nameAt := funext m.nameAt_settled
  unfold completeIndex
  simp only [positions_settled, hname]
  rfl

theorem completed_settled {typeName : String}
    (hdistinct : DistinctNames (m.fields.map (·.column.name)))
    (hlisted : (!m.withColumns.table.primaryKey.isEmpty) = true → m.withColumns.unlisted? = none) :
    m.settled.completed typeName = m.completed typeName := by
  have hkey : m.settled.withColumns.keyNames = m.withColumns.keyNames := by
    rw [keyNames, keyNames, flaggedKey_settled]
    rfl
  have hname : m.settled.withColumns.nameAt = m.withColumns.nameAt := funext m.nameAt_settled
  rw [completed, completed, hkey, positions_settled, hname]
  apply Result.bind_congr
  intro positions hpositions
  have hflagged (i : Nat) (f : FieldMapping) (hf : m.fields[i]? = some f)
      (hflag : f.column.primaryKey = true) : i ∈ positions := by
    obtain ⟨name, hmem, hi⟩ := exists_mem_keyNames hdistinct hlisted i f hf hflag
    exact mem_positions hpositions hmem hi
  have hfields := foldl_markKey_settled hflagged
  simp only [completeIndex_settled, table_foldl_markKey, hfields]
  rfl

@[simp] theorem sealed_settled (typeName : String) :
    m.settled.sealed typeName = m.sealed typeName := by
  have hempty : m.settled.fields.isEmpty = m.fields.isEmpty := List.isEmpty_map
  have hlisted : m.settled.withColumns.table.primaryKey = m.withColumns.table.primaryKey := rfl
  rw [sealed_eq, sealed_eq, hempty, names_settled, hlisted, unlisted?_settled]
  cases m.fields.isEmpty with
  | true => rfl
  | false =>
    cases hduplicate : firstDuplicate? [] (m.fields.map (·.column.name)) with
    | some name => rfl
    | none =>
      have hdistinct := ((firstDuplicate?_eq_none_iff _ _).mp hduplicate).1
      cases hkey : (!m.withColumns.table.primaryKey.isEmpty) with
      | false => exact m.completed_settled hdistinct fun h => absurd (hkey.symm.trans h) nofun
      | true =>
        cases hunlisted : m.withColumns.unlisted? with
        | some name => rfl
        | none => exact m.completed_settled hdistinct fun _ => hunlisted

end Mapping

end RecordMapper
