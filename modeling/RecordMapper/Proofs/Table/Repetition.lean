import RecordMapper.Proofs.Table.Reference

/-!
# Names that are listed twice

Sealing takes the names that are listed for the key and for the indexes as they come, and the names
of the indexes themselves. It does not look for repetitions. Here is said exactly when there are
some: a column is listed twice if two names lead to it, and two indexes have the same name if the
name of one was given and is given again, or is the name that another one gets by its number. The
numbers alone never lead to the same name, and neither do the flags of the columns.
-/

set_option autoImplicit false

namespace RecordMapper

namespace Mapping
variable {m m' : Mapping} {name other typeName : String} {i : Nat}

/-- Both names lead to the same field. -/
def SameField (m : Mapping) (name other : String) : Prop :=
  ∃ i, m.Denotes name i ∧ m.Denotes other i

/-- None of the listed names leads to the field of another one. -/
def ListsApart (m : Mapping) (names : List String) : Prop :=
  names.Pairwise fun name other => ¬ m.SameField name other

theorem sameField_iff (h : DistinctNames (m.fields.map (·.column.name)))
    (hi : m.withColumns.table.columnIndex? name = some i) :
    m.SameField name other ↔ m.withColumns.table.columnIndex? other = some i := by
  constructor
  · rintro ⟨j, hname, hother⟩
    rw [(columnIndex?_eq_some_iff h).mpr hname] at hi
    rw [(columnIndex?_eq_some_iff h).mpr hother, hi]
  · intro hother
    exact ⟨i, (columnIndex?_eq_some_iff h).mp hi, (columnIndex?_eq_some_iff h).mp hother⟩

section Found
variable (h : DistinctNames (m.fields.map (·.column.name))) {names : List String} {found : List Nat}
  (hfound : names.map m.withColumns.table.columnIndex? = found.map some)
include h hfound

/-- A name is found once more exactly if another one leads to the same field. -/
theorem nameAt_mem_iff {p : Nat} (hp : m.withColumns.table.columnIndex? name = some p) :
    m.nameAt p ∈ found.map m.nameAt ↔ ∃ other ∈ names, m.SameField name other := by
  have hlt {name : String} {i : Nat} (hi : m.withColumns.table.columnIndex? name = some i) :
      i < m.fields.length := by
    rw [← length_withColumns]
    exact Table.columnIndex?_lt hi
  constructor
  · intro hmem
    obtain ⟨q, hq, hname⟩ := List.mem_map.mp hmem
    have hsome : some q ∈ names.map m.withColumns.table.columnIndex? := by
      rw [hfound]
      exact List.mem_map_of_mem hq
    obtain ⟨other, hother, hlookup⟩ := List.mem_map.mp hsome
    obtain rfl := eq_of_nameAt_eq h (hlt hlookup) (hlt hp) hname
    exact ⟨other, hother, (sameField_iff h hp).mpr hlookup⟩
  · rintro ⟨other, hother, hsame⟩
    have hsome := List.mem_map_of_mem (f := m.withColumns.table.columnIndex?) hother
    rw [hfound, (sameField_iff h hp).mp hsame] at hsome
    obtain ⟨q, hq, heq⟩ := List.mem_map.mp hsome
    obtain rfl := Option.some.inj heq
    exact List.mem_map_of_mem hq

theorem nodup_map_nameAt_iff : (found.map m.nameAt).Nodup ↔ m.ListsApart names := by
  induction names generalizing found with
  | nil =>
    obtain rfl := List.map_eq_nil_iff.mp hfound.symm
    exact iff_of_true List.nodup_nil List.Pairwise.nil
  | cons name rest ih =>
    cases found with
    | nil => cases hfound
    | cons p others =>
      obtain ⟨hp, hothers⟩ := List.cons.inj hfound
      rw [List.map_cons, List.nodup_cons, nameAt_mem_iff h hothers hp, ih hothers, ListsApart,
        ListsApart, List.pairwise_cons]
      simp only [not_exists, not_and]

end Found

/-- The name of a column leads to that column only. -/
theorem not_sameField_of_names (hname : name ∈ m.fields.map (·.column.name))
    (hother : other ∈ m.fields.map (·.column.name)) (h : Text.sameLetters name other = false) :
    ¬ m.SameField name other := by
  have hcolumn {name : String} {i : Nat} (hname : name ∈ m.fields.map (·.column.name))
      (hi : m.Denotes name i) :
      ∃ f, m.fields[i]? = some f ∧ Text.sameLetters f.column.name name = true := by
    obtain ⟨f, hf, hsame | ⟨hnone, -, -⟩⟩ := hi
    · exact ⟨f, hf, hsame⟩
    · obtain ⟨g, hg, rfl⟩ := List.mem_map.mp hname
      exact absurd ((hnone g hg).symm.trans (Text.sameLetters_refl _)) nofun
  rintro ⟨i, hi, hi'⟩
  obtain ⟨f, hf, hsame⟩ := hcolumn hname hi
  obtain ⟨g, hg, hsame'⟩ := hcolumn hother hi'
  obtain rfl := Option.some.inj (hf.symm.trans hg)
  rw [Text.sameLetters_comm] at hsame
  exact absurd (h.symm.trans (Text.sameLetters_trans hsame hsame')) nofun

theorem listsApart_flaggedKey (h : DistinctNames (m.fields.map (·.column.name))) :
    m.ListsApart m.flaggedKey := by
  have hsublist : m.flaggedKey.Sublist (m.fields.map (·.column.name)) :=
    (List.filter_sublist).map _
  refine List.Pairwise.imp_of_mem ?_ (List.Pairwise.sublist hsublist h)
  intro name other hname hother hdifferent
  exact not_sameField_of_names (hsublist.subset hname) (hsublist.subset hother) hdifferent

/-- A key that is made up of flags lists no column twice; a listed one does if two of its names lead
to the same field. -/
theorem nodup_key_iff_of_sealed (h : m.sealed typeName = .ok m') :
    m'.table.primaryKey.Nodup ↔ m.ListsApart m.table.primaryKey := by
  obtain ⟨positions, hpositions⟩ := exists_sealedAs h
  obtain ⟨found, hfound, hkey⟩ := key_of_sealed h
  rw [hkey, nodup_map_nameAt_iff hpositions.distinct hfound, keyNames]
  split
  · next hempty =>
    have hnone : m.table.primaryKey = [] := List.isEmpty_iff.mp hempty
    rw [hnone]
    exact iff_of_true (listsApart_flaggedKey hpositions.distinct) List.Pairwise.nil
  · exact Iff.rfl

theorem nodup_columns_iff_of_sealed (h : m.sealed typeName = .ok m') {n : Nat} {given : Index}
    (hgiven : m.table.indexes[n]? = some given) :
    ∃ index, m'.table.indexes[n]? = some index ∧ index.name = m.indexName given n ∧
      (index.columns.Nodup ↔ m.ListsApart given.columns) := by
  obtain ⟨positions, hpositions⟩ := exists_sealedAs h
  obtain ⟨index, found, hplace, -, hname, hfound, hcolumns⟩ := index_of_sealed h hgiven
  refine ⟨index, hplace, hname, ?_⟩
  rw [hcolumns, nodup_map_nameAt_iff hpositions.distinct hfound]

/-- No index that was given a name has the name of another index. -/
def IndexesApart (m : Mapping) : Prop :=
  ∀ x ∈ m.table.indexes.zipIdx, ∀ y ∈ m.table.indexes.zipIdx,
    x.2 ≠ y.2 → x.1.name ≠ "" → x.1.name ≠ m.indexName y.1 y.2

instance (m : Mapping) : Decidable m.IndexesApart := inferInstanceAs (Decidable (∀ _ ∈ _, _))

theorem indexName_of_given {index : Index} (h : index.name ≠ "") (n : Nat) :
    m.indexName index n = index.name := if_neg h

/-- The names that come of numbers are all different. -/
theorem eq_of_indexName_eq {index other : Index} {j : Nat} (hindex : index.name = "")
    (hother : other.name = "") (h : m.indexName index i = m.indexName other j) : i = j := by
  rw [indexName, indexName, if_pos hindex, if_pos hother, ← String.toList_inj, String.toList_append,
    String.toList_append (t := Numeral.ofNat j), List.append_cancel_left_eq] at h
  exact Numeral.eq_of_toList_ofNat h

theorem length_indexes_of_sealed (h : m.sealed typeName = .ok m') :
    m'.table.indexes.length = m.table.indexes.length := by
  obtain ⟨_, -, h⟩ := Result.bind_eq_ok_iff.mp (completed_of_sealed h)
  obtain ⟨indexes, hindexes, h⟩ := Result.bind_eq_ok_iff.mp h
  obtain rfl := Except.ok.inj h
  have hall := congrArg List.length
    (Result.map_eq_of_mapM_eq_ok (g := fun _ => ()) (k := fun _ => ()) hindexes fun _ _ _ => rfl)
  rw [List.length_map, List.length_map, List.length_zipIdx] at hall
  exact hall.symm

theorem nodup_names_iff_of_sealed (h : m.sealed typeName = .ok m') :
    (m'.table.indexes.map (·.name)).Nodup ↔ m.IndexesApart := by
  have hname {n : Nat} {given : Index} (hgiven : m.table.indexes[n]? = some given) :
      (m'.table.indexes.map (·.name))[n]? = some (m.indexName given n) := by
    obtain ⟨index, hplace, hname, -⟩ := nodup_columns_iff_of_sealed h hgiven
    rw [List.getElem?_map, hplace]
    exact congrArg some hname
  have hlength : (m'.table.indexes.map (·.name)).length = m.table.indexes.length := by
    rw [List.length_map, length_indexes_of_sealed h]
  constructor
  · rintro hnodup ⟨index, i⟩ hi ⟨other, j⟩ hj hne hgiven heq
    rw [List.mem_zipIdx_iff_getElem?] at hi hj
    have hlt := (List.getElem?_eq_some_iff.mp hi).1
    rw [← indexName_of_given (m := m) hgiven i] at heq
    apply hne
    rw [← List.getElem?_inj (hlength ▸ hlt) hnodup, hname hi, hname hj, heq]
  · intro hapart
    rw [List.nodup_iff_getElem?_ne_getElem?]
    intro i j hij hj heq
    rw [hlength] at hj
    have hi := List.getElem?_eq_getElem (Nat.lt_trans hij hj)
    have hj := List.getElem?_eq_getElem hj
    rw [hname hi, hname hj, Option.some.injEq] at heq
    have hx := List.mk_mem_zipIdx_iff_getElem?.mpr hi
    have hy := List.mk_mem_zipIdx_iff_getElem?.mpr hj
    -- of two equal names one was given, for two numbers differ
    by_cases hgiven : (m.table.indexes[i]).name = ""
    · by_cases hother : (m.table.indexes[j]).name = ""
      · exact absurd (eq_of_indexName_eq hgiven hother heq) (Nat.ne_of_lt hij)
      · refine hapart _ hy _ hx (Nat.ne_of_gt hij) hother ?_
        rw [heq, indexName_of_given hother]
    · refine hapart _ hx _ hy (Nat.ne_of_lt hij) hgiven ?_
      rw [← heq, indexName_of_given hgiven]

end Mapping

namespace Model
variable {model : Model} {counter : UInt32} {m : Mapping}

/-- For every model that can be built: the key, or an index, lists a column twice exactly if two of
the names that were listed for it lead to the same field; a key that is made up of flags does not.
Two indexes have the same name exactly if the name of one was given and the other one was given the
same, or gets it by its number. -/
theorem repetitions_of_build (h : (model.build counter).1 = .ok m) :
    ∃ last, model.refinements.foldlM (model.scope counter).apply model.outline = .ok last ∧
      last.sealed model.typeName = .ok m ∧
      (m.table.primaryKey.Nodup ↔ last.ListsApart last.table.primaryKey) ∧
      m.table.indexes.length = last.table.indexes.length ∧
      (∀ n given, last.table.indexes[n]? = some given →
        ∃ index, m.table.indexes[n]? = some index ∧ index.name = last.indexName given n ∧
          (index.columns.Nodup ↔ last.ListsApart given.columns)) ∧
      ((m.table.indexes.map (·.name)).Nodup ↔ last.IndexesApart) := by
  obtain ⟨-, -, last, hlast, hsealed⟩ := exists_refined_of_build h
  refine ⟨last, hlast, hsealed, Mapping.nodup_key_iff_of_sealed hsealed,
    Mapping.length_indexes_of_sealed hsealed, fun n given hgiven => ?_,
    Mapping.nodup_names_iff_of_sealed hsealed⟩
  exact Mapping.nodup_columns_iff_of_sealed hsealed hgiven

/-- A shelf whose key and indexes are listed by names. -/
def shelfModel (key : List String) (indexes : List Index) : Model where
  id := 0
  typeName := "Shelf"
  initial := {}
  description :=
    .setting (.field { fieldName := "row", slot := ["row"], type := .scalar .int64 }) <|
    .setting (.field { fieldName := "label", slot := ["label"], type := .scalar .string }) <|
    .setting (.primaryKey key) <|
    indexes.foldr (fun index rest => .setting (.index index) rest) .done

/-- A name that was given stands between two that come of numbers. -/
theorem repetitions_of_build_shelf :
    ∃ m, ((shelfModel ["label", "ROW"] [⟨"", .standard, ["row"]⟩, ⟨"Shelf_3", .unique, ["label"]⟩,
        ⟨"", .standard, ["row", "label"]⟩]).build Sentinel.firstCount).1 = .ok m ∧
      m.table.primaryKey.Nodup ∧ (m.table.indexes.map (·.name)).Nodup := by
  let model := shelfModel ["label", "ROW"] [⟨"", .standard, ["row"]⟩,
    ⟨"Shelf_3", .unique, ["label"]⟩, ⟨"", .standard, ["row", "label"]⟩]
  obtain ⟨m, hm⟩ : ∃ m, (model.build Sentinel.firstCount).1 = .ok m :=
    Result.exists_eq_ok_of_isSome (by decide)
  obtain ⟨last, hlast, -, hkey, -, -, hnames⟩ := repetitions_of_build hm
  obtain rfl : model.outline = last := Except.ok.inj hlast
  have hdistinct : DistinctNames (model.outline.fields.map (·.column.name)) := by
    unfold DistinctNames
    decide
  have hlabel : model.outline.withColumns.table.columnIndex? "label" = some 1 := by decide
  have hrow : model.outline.withColumns.table.columnIndex? "ROW" ≠ some 1 := by decide
  have hapart : ¬ model.outline.SameField "label" "ROW" :=
    mt (Mapping.sameField_iff hdistinct hlabel).mp hrow
  exact ⟨m, hm, hkey.mpr (List.pairwise_pair.mpr hapart), hnames.mpr (by decide +kernel)⟩

/-- An index that was given the name which the next one gets by its number; and a key and an index
that list one column in two cases. -/
theorem repetitions_of_shelf :
    ((shelfModel ["row", "Row"] [⟨"Shelf_1", .unique, ["label", "LABEL"]⟩,
        ⟨"", .standard, ["row"]⟩]).build Sentinel.firstCount).1.toOption.map (fun m =>
          (m.table.primaryKey, m.table.indexes)) =
      some (["row", "row"], [⟨"Shelf_1", .unique, ["label", "label"]⟩,
        ⟨"Shelf_1", .standard, ["row"]⟩]) := by
  decide +kernel

end Model

end RecordMapper
