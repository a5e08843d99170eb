import RecordMapper.Proofs.Result
import RecordMapper.Table.Sealing

/-!
# What sealing guarantees

The columns of a sealed mapping are those of its fields and can be told apart by their names; the
key and the indexes name columns by these very names; and the flags of the columns say the same as
the key. Nothing is assumed about the mapping that is sealed: sealing makes up for whatever has
been done to it before, or fails.
-/

set_option autoImplicit false

namespace RecordMapper

/-- No two of the names are equal up to the case of letters. -/
def DistinctNames (names : List String) : Prop :=
  names.Pairwise fun a b => Text.sameLetters a b = false

theorem firstDuplicate?_eq_none_iff (seen names : List String) :
    firstDuplicate? seen names = none ↔
      DistinctNames names ∧ ∀ a ∈ seen, ∀ b ∈ names, Text.sameLetters a b = false := by
  induction names generalizing seen with
  | nil => simp [firstDuplicate?, DistinctNames]
  | cons name rest ih =>
    rw [firstDuplicate?]
    split
    · next hseen =>
      obtain ⟨a, ha, hsame⟩ := List.any_eq_true.mp hseen
      refine iff_of_false nofun fun h => ?_
      rw [h.2 a ha name List.mem_cons_self] at hsame
      cases hsame
    · next hseen =>
      have hnew : ∀ a ∈ seen, Text.sameLetters a name = false := by
        simpa using hseen
      rw [ih, DistinctNames, DistinctNames, List.pairwise_cons, List.forall_mem_cons]
      constructor
      · rintro ⟨hrest, hname, hothers⟩
        exact ⟨⟨hname, hrest⟩, fun a ha => List.forall_mem_cons.mpr ⟨hnew a ha, hothers a ha⟩⟩
      · rintro ⟨⟨hname, hrest⟩, hothers⟩
        exact ⟨hrest, hname, fun a ha => (List.forall_mem_cons.mp (hothers a ha)).2⟩

theorem DistinctNames.index_eq {names : List String} (h : DistinctNames names) {i j : Nat}
    {a b : String} (hi : names[i]? = some a) (hj : names[j]? = some b)
    (hsame : Text.sameLetters a b = true) : i = j := by
  obtain ⟨hi', rfl⟩ := List.getElem?_eq_some_iff.mp hi
  obtain ⟨hj', rfl⟩ := List.getElem?_eq_some_iff.mp hj
  have hpair := List.pairwise_iff_getElem.mp h
  rcases Nat.lt_trichotomy i j with hlt | heq | hgt
  · rw [hpair i j hi' hj' hlt] at hsame
    cases hsame
  · exact heq
  · rw [Text.sameLetters_comm, hpair j i hj' hi' hgt] at hsame
    cases hsame

theorem DistinctNames.nodup {names : List String} (h : DistinctNames names) : names.Nodup :=
  h.imp fun {a b} hdistinct hsame => by
    rw [hsame, Text.sameLetters_refl] at hdistinct
    cases hdistinct

namespace Table
variable {t : Table} {i : Nat} {c : Column} {name : String}

def names (t : Table) : List String := t.columns.map (·.name)

theorem getElem?_names (hc : t.columns[i]? = some c) : t.names[i]? = some c.name := by
  rw [names, List.getElem?_map, hc]
  rfl

/-- Where names can be told apart, the name of a column in any case leads to that column. -/
theorem columnIndex?_of_sameLetters (h : DistinctNames t.names) (hc : t.columns[i]? = some c)
    (hsame : Text.sameLetters c.name name = true) : t.columnIndex? name = some i := by
  obtain ⟨hi, rfl⟩ := List.getElem?_eq_some_iff.mp hc
  rw [columnIndex?, Option.or_eq_some_iff]
  refine Or.inl (List.findIdx?_eq_some_iff_getElem.mpr ⟨hi, hsame, fun j hj => ?_⟩)
  intro hfound
  have hnames := Text.sameLetters_trans hfound ((Text.sameLetters_comm _ _).trans hsame)
  have heq := h.index_eq (getElem?_names (List.getElem?_eq_getElem (Nat.lt_trans hj hi)))
    (getElem?_names hc) hnames
  omega

theorem columnIndex?_name (h : DistinctNames t.names) (hc : t.columns[i]? = some c) :
    t.columnIndex? c.name = some i :=
  columnIndex?_of_sameLetters h hc (Text.sameLetters_refl c.name)

end Table

/-- The field as a part of the key. -/
def FieldMapping.keyed (f : FieldMapping) : FieldMapping :=
  { f with column.primaryKey := true, column.nullable := false }

namespace Mapping
variable {m m' : Mapping} {typeName : String}

@[simp] theorem fields_markKey (m : Mapping) (i : Nat) :
    (m.markKey i).fields = m.fields.modify i FieldMapping.keyed := rfl

theorem getElem?_foldl_markKey (positions : List Nat) (m : Mapping) (i : Nat) :
    (positions.foldl markKey m).fields[i]? =
      (m.fields[i]?).map fun f => if i ∈ positions then f.keyed else f := by
  induction positions generalizing m with
  | nil => simp
  | cons p rest ih =>
    rw [List.foldl_cons, ih, fields_markKey, List.getElem?_modify]
    cases m.fields[i]? with
    | none => rfl
    | some f =>
      by_cases hp : p = i
      · by_cases hrest : i ∈ rest <;> simp [hp, hrest, FieldMapping.keyed]
      · have hne : ¬ i = p := fun h => hp h.symm
        simp [hp, hne]

theorem positions_of_ok {missing : String → Error} {names : List String} {positions : List Nat}
    (h : m.positions missing names = .ok positions) :
    names.map m.table.columnIndex? = positions.map some := by
  refine Result.map_eq_of_mapM_eq_ok h fun name i hi => ?_
  split at hi
  · next found hfound => rw [hfound, Except.ok.inj hi]
  · cases hi

theorem lt_of_mem_positions {missing : String → Error} {names : List String}
    {positions : List Nat} (h : m.positions missing names = .ok positions) {i : Nat}
    (hi : i ∈ positions) : i < m.table.columns.length := by
  have hsome : some i ∈ names.map m.table.columnIndex? := by
    rw [positions_of_ok h]
    exact List.mem_map_of_mem hi
  obtain ⟨name, -, hname⟩ := List.mem_map.mp hsome
  exact Table.columnIndex?_lt hname

theorem mem_positions {missing : String → Error} {names : List String} {positions : List Nat}
    (h : m.positions missing names = .ok positions) {name : String} {i : Nat} (hname : name ∈ names)
    (hi : m.table.columnIndex? name = some i) : i ∈ positions := by
  have hsome : some i ∈ positions.map some := by
    rw [← positions_of_ok h, ← hi]
    exact List.mem_map_of_mem hname
  obtain ⟨j, hj, heq⟩ := List.mem_map.mp hsome
  rwa [← Option.some.inj heq]

/-- An index that has been completed has a name and columns, under their own names. -/
theorem complete_of_completeIndex {index index' : Index} {n : Nat}
    (h : m.completeIndex typeName index n = .ok index') :
    index'.name ≠ "" ∧ index'.columns ≠ [] ∧
      ∀ name ∈ index'.columns, ∃ i < m.table.columns.length, m.nameAt i = name := by
  unfold completeIndex at h
  simp only at h
  split at h
  · cases h
  · next hcolumns =>
    obtain ⟨positions, hpositions, h⟩ := Result.bind_eq_ok_iff.mp h
    obtain rfl := Except.ok.inj h
    have hlength := congrArg List.length (positions_of_ok hpositions)
    rw [List.length_map, List.length_map] at hlength
    refine ⟨?_, ?_, fun name hname => ?_⟩
    · change (if index.name = "" then _ else _) ≠ ""
      split
      · simp
      · next hname => exact hname
    · intro hnil
      rw [List.map_eq_nil_iff.mp hnil, List.length_nil, List.length_eq_zero_iff] at hlength
      rw [hlength] at hcolumns
      exact hcolumns rfl
    · obtain ⟨i, hi, rfl⟩ := List.mem_map.mp hname
      exact ⟨i, lt_of_mem_positions hpositions hi, rfl⟩

/-- A listed key that leaves nothing out leads to every flagged column. -/
theorem exists_listed_of_unlisted?_eq_none (h : m.unlisted? = none) {i : Nat} {f : FieldMapping}
    (hf : m.fields[i]? = some f) (hflag : f.column.primaryKey = true) :
    ∃ name ∈ m.table.primaryKey, m.table.columnIndex? name = some i := by
  simp only [unlisted?, List.head?_eq_none_iff, List.map_eq_nil_iff, List.filter_eq_nil_iff] at h
  have hlisted := h (f, i) (List.mem_zipIdx_iff_getElem?.mpr (by simpa using hf))
  simpa [hflag] using hlisted

theorem mem_flaggedKey {i : Nat} {f : FieldMapping} (hf : m.fields[i]? = some f)
    (hflag : f.column.primaryKey = true) : f.column.name ∈ m.flaggedKey :=
  List.mem_map_of_mem (List.mem_filter.mpr ⟨List.mem_of_getElem? hf, hflag⟩)

theorem nameAt_of_getElem? {i : Nat} {f : FieldMapping} (hf : m.fields[i]? = some f) :
    m.nameAt i = f.column.name := by
  rw [nameAt, hf]
  rfl

/-- How the sealed mapping comes about: the key is at these positions. -/
structure SealedAs (m : Mapping) (positions : List Nat) (m' : Mapping) : Prop where
  nonempty : m.fields ≠ []
  distinct : DistinctNames (m.fields.map (·.column.name))
  bounded : ∀ i ∈ positions, i < m.fields.length
  flagged : ∀ i f, m.fields[i]? = some f → f.column.primaryKey = true → i ∈ positions
  fields : m'.fields = (positions.foldl markKey m).fields
  columns : m'.table.columns = m'.fields.map (·.column)
  key : m'.table.primaryKey = positions.map m.nameAt
  indexes : ∀ index ∈ m'.table.indexes, index.name ≠ "" ∧ index.columns ≠ [] ∧
    ∀ name ∈ index.columns, ∃ i < m.fields.length, m.nameAt i = name

@[simp] theorem names_withColumns (m : Mapping) :
    m.withColumns.table.names = m.fields.map (·.column.name) := by
  rw [Table.names, withColumns, List.map_map]
  rfl

@[simp] theorem length_withColumns (m : Mapping) :
    m.withColumns.table.columns.length = m.fields.length :=
  List.length_map _

/-- The names of the key: those that are listed, or else those of the flagged columns. -/
def keyNames (m : Mapping) : List String :=
  if m.table.primaryKey.isEmpty then m.flaggedKey else m.table.primaryKey

theorem exists_mem_keyNames (hdistinct : DistinctNames (m.fields.map (·.column.name)))
    (hlisted : (!m.withColumns.table.primaryKey.isEmpty) = true → m.withColumns.unlisted? = none)
    (i : Nat) (f : FieldMapping) (hf : m.fields[i]? = some f) (hflag : f.column.primaryKey = true) :
    ∃ name ∈ m.withColumns.keyNames, m.withColumns.table.columnIndex? name = some i := by
  unfold keyNames
  split
  · refine ⟨f.column.name, mem_flaggedKey (m := m.withColumns) hf hflag, ?_⟩
    apply Table.columnIndex?_name
    · rw [names_withColumns]
      exact hdistinct
    · rw [withColumns, List.getElem?_map, hf]
      rfl
  · next hkey =>
    have hunlisted := hlisted (by simpa using hkey)
    exact exists_listed_of_unlisted?_eq_none hunlisted hf hflag

/-- The last steps of sealing, once it is known that the key leaves no flagged column out. -/
def completed (m : Mapping) (typeName : String) : Result Mapping := do
  let positions ← m.withColumns.positions
    (fun name => .unsupportedModel typeName (.unknownKey name)) m.withColumns.keyNames
  let indexes ← m.withColumns.table.indexes.zipIdx.mapM
    fun x => m.withColumns.completeIndex typeName x.1 x.2
  return { positions.foldl markKey m.withColumns with
    table.primaryKey := positions.map m.withColumns.nameAt
    table.indexes := indexes }.withColumns

theorem sealed_eq (m : Mapping) (typeName : String) :
    m.sealed typeName =
      if m.fields.isEmpty then .error (.unsupportedModel typeName .noFields)
      else match firstDuplicate? [] (m.fields.map (·.column.name)) with
        | some name => .error (.unsupportedModel typeName (.duplicateColumn name))
        | none =>
          if !m.withColumns.table.primaryKey.isEmpty then
            match m.withColumns.unlisted? with
            | some name => .error (.unsupportedModel typeName (.unlistedKey name))
            | none => m.completed typeName
          else m.completed typeName := by
  unfold sealed
  simp only
  cases m.fields.isEmpty with
  | true => rfl
  | false =>
    cases firstDuplicate? [] (m.fields.map (·.column.name)) with
    | some name => rfl
    | none =>
      cases (!m.withColumns.table.primaryKey.isEmpty) with
      | false => rfl
      | true =>
        cases m.withColumns.unlisted? with
        | some name => rfl
        | none => rfl

theorem sealedAs_of_completed (hfields : m.fields ≠ [])
    (hdistinct : DistinctNames (m.fields.map (·.column.name)))
    (hlisted : (!m.withColumns.table.primaryKey.isEmpty) = true → m.withColumns.unlisted? = none)
    (h : m.completed typeName = .ok m') : ∃ positions, m.SealedAs positions m' := by
  obtain ⟨positions, hpositions, h⟩ := Result.bind_eq_ok_iff.mp h
  obtain ⟨indexes, hindexes, h⟩ := Result.bind_eq_ok_iff.mp h
  obtain rfl := Except.ok.inj h
  refine ⟨positions, hfields, hdistinct, fun i hi => ?_, fun i f hf hflag => ?_, ?_, rfl, rfl,
    fun index hindex => ?_⟩
  · exact Nat.lt_of_lt_of_eq (lt_of_mem_positions hpositions hi) (length_withColumns m)
  · obtain ⟨name, hname, hi⟩ := exists_mem_keyNames hdistinct hlisted i f hf hflag
    exact mem_positions hpositions hname hi
  · apply List.ext_getElem?
    intro i
    exact (getElem?_foldl_markKey positions _ i).trans (getElem?_foldl_markKey positions m i).symm
  · obtain ⟨⟨given, n⟩, -, hcomplete⟩ := Result.exists_of_mapM_eq_ok hindexes hindex
    have hdone := complete_of_completeIndex hcomplete
    rw [length_withColumns] at hdone
    exact hdone

theorem exists_sealedAs (h : m.sealed typeName = .ok m') : ∃ positions, m.SealedAs positions m' := by
  rw [sealed_eq] at h
  split at h
  · cases h
  · next hfields =>
    have hnonempty : m.fields ≠ [] := fun hnil => hfields (by rw [hnil]; rfl)
    split at h
    · cases h
    · next hnone =>
      have hdistinct := ((firstDuplicate?_eq_none_iff _ _).mp hnone).1
      split at h
      · split at h
        · cases h
        · next hunlisted => exact sealedAs_of_completed hnonempty hdistinct (fun _ => hunlisted) h
      · next hlisted =>
        exact sealedAs_of_completed hnonempty hdistinct (fun hkey => absurd hkey hlisted) h

def IsSealed (m : Mapping) : Prop :=
  ∃ (draft : Mapping) (typeName : String), draft.sealed typeName = .ok m

/-- The columns are those of the fields, and the names and flags of the table agree with them. -/
structure Consistent (m : Mapping) : Prop where
  nonempty : m.table.columns ≠ []
  columns : m.table.columns = m.fields.map (·.column)
  distinct : DistinctNames m.table.names
  key : ∀ name ∈ m.table.primaryKey, name ∈ m.table.names
  flagged : ∀ c ∈ m.table.columns, c.primaryKey = true ↔ c.name ∈ m.table.primaryKey
  notNull : ∀ c ∈ m.table.columns, c.primaryKey = true → c.nullable = false
  indexes : ∀ index ∈ m.table.indexes, index.name ≠ "" ∧ index.columns ≠ [] ∧
    ∀ name ∈ index.columns, name ∈ m.table.names

namespace SealedAs
variable {positions : List Nat} {i : Nat} {f : FieldMapping}

theorem getElem?_fields (h : m.SealedAs positions m') (i : Nat) :
    m'.fields[i]? = (m.fields[i]?).map fun f => if i ∈ positions then f.keyed else f := by
  rw [h.fields, getElem?_foldl_markKey]

theorem names (h : m.SealedAs positions m') : m'.table.names = m.fields.map (·.column.name) := by
  rw [Table.names, h.columns]
  apply List.ext_getElem?
  intro i
  rw [List.getElem?_map, List.getElem?_map, List.getElem?_map, h.getElem?_fields]
  cases m.fields[i]? with
  | none => rfl
  | some f =>
    by_cases hi : i ∈ positions
    · simp [hi, FieldMapping.keyed]
    · simp [hi]

theorem nameAt_mem (h : m.SealedAs positions m') (hi : i < m.fields.length) :
    m.nameAt i ∈ m'.table.names := by
  rw [nameAt_of_getElem? (List.getElem?_eq_getElem hi), h.names]
  exact List.mem_map_of_mem (List.getElem_mem hi)

/-- The fields at the positions of the key, and no others, are part of the key. -/
theorem mem_key_iff (h : m.SealedAs positions m') (hf : m.fields[i]? = some f) :
    f.column.name ∈ m'.table.primaryKey ↔ i ∈ positions := by
  rw [h.key, List.mem_map]
  constructor
  · rintro ⟨j, hj, hname⟩
    obtain ⟨g, hg⟩ : ∃ g, m.fields[j]? = some g := ⟨_, List.getElem?_eq_getElem (h.bounded j hj)⟩
    rw [nameAt_of_getElem? hg] at hname
    have hnameAt {k : Nat} {f : FieldMapping} (hf : m.fields[k]? = some f) :
        (m.fields.map (·.column.name))[k]? = some f.column.name := by
      rw [List.getElem?_map, hf]
      rfl
    have heq := h.distinct.index_eq (hnameAt hg) (hnameAt hf) (by rw [hname, Text.sameLetters_refl])
    rwa [← heq]
  · intro hi
    exact ⟨i, hi, nameAt_of_getElem? hf⟩

theorem exists_of_mem_columns (h : m.SealedAs positions m') {c : Column}
    (hc : c ∈ m'.table.columns) :
    ∃ (i : Nat) (f : FieldMapping), m.fields[i]? = some f ∧
      c = (if i ∈ positions then f.keyed else f).column := by
  rw [h.columns] at hc
  obtain ⟨g, hg, rfl⟩ := List.mem_map.mp hc
  obtain ⟨i, hi⟩ := List.mem_iff_getElem?.mp hg
  rw [h.getElem?_fields] at hi
  obtain ⟨f, hf, rfl⟩ := Option.map_eq_some_iff.mp hi
  exact ⟨i, f, hf, rfl⟩

theorem consistent (h : m.SealedAs positions m') : m'.Consistent where
  nonempty := by
    intro hnil
    rw [h.columns, List.map_eq_nil_iff] at hnil
    obtain ⟨f, rest, hfields⟩ := List.exists_cons_of_ne_nil h.nonempty
    have hfirst := h.getElem?_fields 0
    rw [hnil, hfields] at hfirst
    cases hfirst
  columns := h.columns
  distinct := by
    rw [h.names]
    exact h.distinct
  key name hname := by
    rw [h.key] at hname
    obtain ⟨i, hi, rfl⟩ := List.mem_map.mp hname
    exact h.nameAt_mem (h.bounded i hi)
  flagged c hc := by
    obtain ⟨i, f, hf, rfl⟩ := h.exists_of_mem_columns hc
    split
    · next hi => exact iff_of_true rfl ((h.mem_key_iff hf).mpr hi)
    · next hi =>
      refine iff_of_false (fun hflag => hi (h.flagged i f hf hflag)) fun hmem => ?_
      exact hi ((h.mem_key_iff hf).mp hmem)
  notNull c hc hkey := by
    obtain ⟨i, f, hf, rfl⟩ := h.exists_of_mem_columns hc
    split at hkey
    · next hi => simp [hi, FieldMapping.keyed]
    · next hi => exact absurd (h.flagged i f hf hkey) hi
  indexes index hindex := by
    obtain ⟨hname, hcolumns, hall⟩ := h.indexes index hindex
    refine ⟨hname, hcolumns, fun name hmem => ?_⟩
    obtain ⟨i, hi, rfl⟩ := hall name hmem
    exact h.nameAt_mem hi

end SealedAs

theorem IsSealed.consistent (h : m.IsSealed) : m.Consistent := by
  obtain ⟨draft, typeName, hsealed⟩ := h
  obtain ⟨positions, hpositions⟩ := exists_sealedAs hsealed
  exact hpositions.consistent

end Mapping

end RecordMapper
