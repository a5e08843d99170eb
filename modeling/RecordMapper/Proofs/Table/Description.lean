import RecordMapper.Proofs.Table.Consistency
import RecordMapper.Table.Model

/-!
# From a description to a coherent mapping

Two laws hold of a mapping from its description on: generated columns are flagged as key columns,
and at most one field is a truth value recognised by value. Refinements change and rename columns
in any order, and keep the two laws. Sealing adds all others.
-/

set_option autoImplicit false

namespace RecordMapper

/-- A truth value that is recognised by value. -/
def FieldType.isPlainBool (type : FieldType) : Bool :=
  type.isByValue && type.sqlType .name = .boolean

/-- A generated column is flagged as a key column. -/
def Column.FlagsAgree (c : Column) : Prop := c.autoIncrement = true → c.primaryKey = true

theorem FieldDeclaration.flagsAgree_column (d : FieldDeclaration) : d.column.FlagsAgree := by
  intro hauto
  change (d.primaryKey || d.autoIncrement) = true
  rw [show d.autoIncrement = true from hauto, Bool.or_true]

namespace Mapping
variable {m m' : Mapping}

structure Prepared (m : Mapping) : Prop where
  flags : ∀ f ∈ m.fields, f.column.FlagsAgree
  oneBoolean : m.fields.countP (·.type.isPlainBool) ≤ 1

theorem prepared_of_finish {t : TableDraft} {typeName : String} (h : t.finish typeName = .ok m) :
    m.Prepared := by
  unfold TableDraft.finish at h
  split at h
  · cases h
  · next hcount =>
    obtain rfl := Except.ok.inj h
    refine ⟨fun f hf => ?_, ?_⟩
    · obtain ⟨d, -, rfl⟩ := List.mem_map.mp hf
      exact d.flagsAgree_column
    · change (t.persisted.map (·.mapping)).countP _ ≤ 1
      rw [List.countP_map]
      rw [← List.countP_eq_length_filter] at hcount
      exact Nat.le_of_not_lt hcount

/-- Nothing but the columns and types of the fields is asked for. -/
theorem Prepared.of_fields (h : m.Prepared)
    (hflags : ∀ f' ∈ m'.fields, ∃ f ∈ m.fields, f.column.FlagsAgree → f'.column.FlagsAgree)
    (htypes : m'.fields.map (·.type) = m.fields.map (·.type)) : m'.Prepared where
  flags f' hf' := by
    obtain ⟨f, hf, himp⟩ := hflags f' hf'
    exact himp (h.flags f hf)
  oneBoolean := by
    have hcount (m : Mapping) : m.fields.countP (·.type.isPlainBool) =
        (m.fields.map (·.type)).countP FieldType.isPlainBool := by
      rw [List.countP_map]
      rfl
    rw [hcount, htypes, ← hcount]
    exact h.oneBoolean

theorem Prepared.changeColumn {s : RefinementScope} {r : Reference} {change : Column → Column}
    (h : m.Prepared) (hm : s.changeColumn m r change = .ok m')
    (hchange : ∀ c, c.FlagsAgree → (change c).FlagsAgree) : m'.Prepared := by
  obtain ⟨i, -, rfl⟩ := Result.map_eq_ok_iff.mp hm
  refine h.of_fields (fun f' hf' => ?_) ?_
  · obtain ⟨j, hj⟩ := List.mem_iff_getElem?.mp hf'
    rw [List.getElem?_modify] at hj
    obtain ⟨f, hf, rfl⟩ := Option.map_eq_some_iff.mp hj
    refine ⟨f, List.mem_of_getElem? hf, fun hflags => ?_⟩
    split
    · exact hchange _ hflags
    · exact hflags
  · apply List.ext_getElem?
    intro j
    rw [List.getElem?_map, List.getElem?_map, List.getElem?_modify]
    cases m.fields[j]? with
    | none => rfl
    | some f => by_cases hj : i = j <;> simp [hj]

theorem Prepared.apply {s : RefinementScope} {r : Refinement} (h : m.Prepared)
    (hm : s.apply m r = .ok m') : m'.Prepared := by
  have table {m' : Mapping} (hfields : m'.fields = m.fields) : m'.Prepared :=
    ⟨hfields ▸ h.flags, hfields ▸ h.oneBoolean⟩
  cases r with
  | tableName | schemaName | version | memoryTable | createIfMissing =>
    obtain rfl := Except.ok.inj hm
    exact table rfl
  | primaryKey | index =>
    obtain ⟨names, -, rfl⟩ := Result.map_eq_ok_iff.mp hm
    exact table rfl
  | length | scale | trim | nullable | columnName =>
    rw [RefinementScope.apply] at hm
    exact h.changeColumn hm fun _ hc => hc
  | autoIncrement =>
    rw [RefinementScope.apply] at hm
    exact h.changeColumn hm fun _ _ _ => rfl

theorem Prepared.refine {s : RefinementScope} {refinements : List Refinement} (h : m.Prepared)
    (hm : refinements.foldlM s.apply m = .ok m') : m'.Prepared := by
  induction refinements generalizing m with
  | nil =>
    obtain rfl := Except.ok.inj hm
    exact h
  | cons r rest ih =>
    rw [List.foldlM_cons] at hm
    obtain ⟨next, hnext, hm⟩ := Result.bind_eq_ok_iff.mp hm
    exact ih (h.apply hnext) hm

theorem SealedAs.prepared {positions : List Nat} (hs : m.SealedAs positions m')
    (h : m.Prepared) : m'.Prepared := by
  refine h.of_fields (fun f' hf' => ?_) ?_
  · obtain ⟨i, hi⟩ := List.mem_iff_getElem?.mp hf'
    rw [hs.getElem?_fields] at hi
    obtain ⟨f, hf, rfl⟩ := Option.map_eq_some_iff.mp hi
    refine ⟨f, List.mem_of_getElem? hf, fun hflags => ?_⟩
    split
    · exact fun _ => rfl
    · exact hflags
  · apply List.ext_getElem?
    intro i
    rw [List.getElem?_map, List.getElem?_map, hs.getElem?_fields]
    cases m.fields[i]? with
    | none => rfl
    | some f => by_cases hi : i ∈ positions <;> simp [hi, FieldMapping.keyed]

/-- A mapping as it is once a model has been described. -/
structure Coherent (m : Mapping) : Prop extends m.Consistent where
  generated : ∀ c ∈ m.table.columns, c.autoIncrement = true →
    c.primaryKey = true ∧ c.nullable = false
  oneBoolean : m.fields.countP (·.type.isPlainBool) ≤ 1

theorem Prepared.coherent {typeName : String} (h : m.Prepared)
    (hm : m.sealed typeName = .ok m') : m'.Coherent := by
  obtain ⟨positions, hs⟩ := exists_sealedAs hm
  have hprepared := hs.prepared h
  refine { hs.consistent with generated := fun c hc hauto => ?_, oneBoolean := hprepared.oneBoolean }
  have hkey : c.primaryKey = true := by
    rw [hs.columns] at hc
    obtain ⟨f, hf, rfl⟩ := List.mem_map.mp hc
    exact hprepared.flags f hf hauto
  exact ⟨hkey, hs.consistent.notNull c hc hkey⟩

theorem coherent_of_build {model : Model} {counter : UInt32}
    (h : (model.build counter).1 = .ok m) : m.Coherent := by
  unfold Model.build at h
  split at h
  · cases h
  · next described hdescribed =>
    obtain ⟨refined, hrefined, hsealed⟩ := Result.bind_eq_ok_iff.mp h
    obtain ⟨_, -, hrefined⟩ := Result.bind_eq_ok_iff.mp hrefined
    exact ((prepared_of_finish hdescribed).refine hrefined).coherent hsealed

end Mapping

end RecordMapper
