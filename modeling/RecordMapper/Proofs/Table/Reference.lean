import RecordMapper.Proofs.Query.Scope
import RecordMapper.Proofs.Table.Styles

/-!
# Keys and indexes listed by references

A refinement that lists fields for the key or for an index keeps the names that their columns have
at the time. Sealing looks these names up among the names the columns have in the end, and among the
names of the fields where no column is called so. A field that has been renamed in the meantime is
therefore found again only if its old name, or a name of the field like it, has not come to belong
to another one. Here is said exactly when it is found again; where it is not, the key or the index
is made up of another column.
-/

set_option autoImplicit false

namespace RecordMapper

namespace Refinement

def listsKey : Refinement → Bool
  | primaryKey _ => true
  | _ => false

def renames : Refinement → Bool
  | columnName _ _ => true
  | _ => false

end Refinement

namespace Mapping

variable {m m' : Mapping} {name typeName : String} {i : Nat}

/-- The name leads to the field in position `i`: its column is called so, or else no column is, and
it is the first field that is. Case does not matter. -/
def Denotes (m : Mapping) (name : String) (i : Nat) : Prop :=
  ∃ f, m.fields[i]? = some f ∧
    (Text.sameLetters f.column.name name = true ∨
      (∀ g ∈ m.fields, Text.sameLetters g.column.name name = false) ∧
        Text.sameLetters f.column.fieldName name = true ∧
        ∀ j < i, ∀ g, m.fields[j]? = some g → Text.sameLetters g.column.fieldName name = false)

theorem getElem?_columns_withColumns (m : Mapping) (i : Nat) :
    m.withColumns.table.columns[i]? = (m.fields[i]?).map (·.column) := List.getElem?_map

theorem columnIndex?_eq_some_iff (h : DistinctNames (m.fields.map (·.column.name))) :
    m.withColumns.table.columnIndex? name = some i ↔ m.Denotes name i := by
  constructor
  · intro hi
    rw [Table.columnIndex?, Option.or_eq_some_iff] at hi
    rcases hi with hi | ⟨hnone, hi⟩
    · obtain ⟨hlt, hsame, -⟩ := List.findIdx?_eq_some_iff_getElem.mp hi
      obtain ⟨f, hf, hcolumn⟩ := Option.map_eq_some_iff.mp
        ((getElem?_columns_withColumns m i).symm.trans (List.getElem?_eq_getElem hlt))
      exact ⟨f, hf, .inl (hcolumn ▸ hsame)⟩
    · obtain ⟨hlt, hsame, hfirst⟩ := List.findIdx?_eq_some_iff_getElem.mp hi
      obtain ⟨f, hf, hcolumn⟩ := Option.map_eq_some_iff.mp
        ((getElem?_columns_withColumns m i).symm.trans (List.getElem?_eq_getElem hlt))
      refine ⟨f, hf, .inr ⟨fun g hg => ?_, hcolumn ▸ hsame, fun j hj g hg => ?_⟩⟩
      · exact List.findIdx?_eq_none_iff.mp hnone g.column (List.mem_map_of_mem hg)
      · obtain ⟨hj', heq⟩ := List.getElem?_eq_some_iff.mp
          ((getElem?_columns_withColumns m j).trans (congrArg (·.map (·.column)) hg))
        have hother := hfirst j hj
        rw [heq] at hother
        exact Bool.eq_false_iff.mpr hother
  · rintro ⟨f, hf, hname | ⟨hnone, hname, hfirst⟩⟩
    · apply Table.columnIndex?_of_sameLetters (c := f.column)
      · rwa [names_withColumns]
      · rw [getElem?_columns_withColumns, hf]
        rfl
      · exact hname
    · rw [Table.columnIndex?, Option.or_eq_some_iff]
      refine .inr ⟨List.findIdx?_eq_none_iff.mpr fun c hc => ?_,
        List.findIdx?_eq_some_iff_getElem.mpr ?_⟩
      · obtain ⟨g, hg, rfl⟩ := List.mem_map.mp hc
        exact hnone g hg
      · have hcolumn : m.withColumns.table.columns[i]? = some f.column := by
          rw [getElem?_columns_withColumns, hf]
          rfl
        obtain ⟨hlt, heq⟩ := List.getElem?_eq_some_iff.mp hcolumn
        refine ⟨hlt, heq ▸ hname, fun j hj hsame => ?_⟩
        obtain ⟨g, hg, hcolumn⟩ := Option.map_eq_some_iff.mp
          ((getElem?_columns_withColumns m j).symm.trans
            (List.getElem?_eq_getElem (Nat.lt_trans hj hlt)))
        rw [← hcolumn, hfirst j hj g hg] at hsame
        cases hsame

theorem denotes_nameAt (hi : i < m.fields.length) : m.Denotes (m.nameAt i) i := by
  refine ⟨m.fields[i], List.getElem?_eq_getElem hi, .inl ?_⟩
  rw [nameAt_of_getElem? (List.getElem?_eq_getElem hi)]
  exact Text.sameLetters_refl _

theorem eq_of_nameAt_eq (h : DistinctNames (m.fields.map (·.column.name))) {j : Nat}
    (hi : i < m.fields.length) (hj : j < m.fields.length) (heq : m.nameAt i = m.nameAt j) :
    i = j := by
  rw [nameAt_of_getElem? (List.getElem?_eq_getElem hi),
    nameAt_of_getElem? (List.getElem?_eq_getElem hj)] at heq
  apply h.index_eq (a := m.fields[i].column.name) (b := m.fields[j].column.name)
  · rw [List.getElem?_map, List.getElem?_eq_getElem hi]
    rfl
  · rw [List.getElem?_map, List.getElem?_eq_getElem hj]
    rfl
  · rw [heq]
    exact Text.sameLetters_refl _

/-- Fields that have been listed by names are found again if and only if each of the names leads to
its field. -/
theorem map_nameAt_eq_iff (h : DistinctNames (m.fields.map (·.column.name)))
    {fields found : List Nat} (hfields : ∀ i ∈ fields, i < m.fields.length) {nameOf : Nat → String}
    (hfound : (fields.map nameOf).map m.withColumns.table.columnIndex? = found.map some) :
    found.map m.nameAt = fields.map m.nameAt ↔ ∀ i ∈ fields, m.Denotes (nameOf i) i := by
  induction fields generalizing found with
  | nil =>
    obtain rfl := List.map_eq_nil_iff.mp hfound.symm
    exact iff_of_true rfl nofun
  | cons i rest ih =>
    cases found with
    | nil => cases hfound
    | cons p others =>
      obtain ⟨hp, hothers⟩ := List.cons.inj hfound
      have hlt : p < m.fields.length := by
        rw [← length_withColumns]
        exact Table.columnIndex?_lt hp
      have hfirst : m.nameAt p = m.nameAt i ↔ m.Denotes (nameOf i) i := by
        rw [← columnIndex?_eq_some_iff h, hp, Option.some.injEq]
        refine ⟨eq_of_nameAt_eq h hlt (hfields i List.mem_cons_self), congrArg m.nameAt⟩
      have hrest := ih (fun j hj => hfields j (List.mem_cons_of_mem i hj)) hothers
      rw [List.map_cons, List.map_cons, List.cons.injEq, List.forall_mem_cons, hfirst, hrest]

theorem completed_of_sealed (h : m.sealed typeName = .ok m') : m.completed typeName = .ok m' := by
  rw [sealed_eq] at h
  split at h
  · cases h
  · split at h
    · cases h
    · split at h
      · split at h
        · cases h
        · exact h
      · exact h

theorem SealedAs.nameAt_eq {positions : List Nat} (h : m.SealedAs positions m') (i : Nat) :
    m'.nameAt i = m.nameAt i := by
  rw [nameAt, nameAt, h.getElem?_fields]
  cases m.fields[i]? with
  | none => rfl
  | some f => by_cases hi : i ∈ positions <;> simp [hi, FieldMapping.keyed]

theorem key_of_sealed (h : m.sealed typeName = .ok m') :
    ∃ found : List Nat,
      m.withColumns.keyNames.map m.withColumns.table.columnIndex? = found.map some ∧
      m'.table.primaryKey = found.map m.nameAt := by
  obtain ⟨found, hfound, h⟩ := Result.bind_eq_ok_iff.mp (completed_of_sealed h)
  obtain ⟨indexes, -, h⟩ := Result.bind_eq_ok_iff.mp h
  obtain rfl := Except.ok.inj h
  exact ⟨found, positions_of_ok hfound, rfl⟩

/-- The name that an index gets: its own, or else that of the table with its number. -/
def indexName (m : Mapping) (index : Index) (n : Nat) : String :=
  if index.name = "" then m.table.name ++ "_" ++ Numeral.ofNat n else index.name

theorem index_of_sealed (h : m.sealed typeName = .ok m') {n : Nat} {index : Index}
    (hindex : m.table.indexes[n]? = some index) :
    ∃ (index' : Index) (found : List Nat), m'.table.indexes[n]? = some index' ∧
      index'.kind = index.kind ∧
      index'.name = m.indexName index n ∧
      index.columns.map m.withColumns.table.columnIndex? = found.map some ∧
      index'.columns = found.map m.nameAt := by
  obtain ⟨_, -, h⟩ := Result.bind_eq_ok_iff.mp (completed_of_sealed h)
  obtain ⟨indexes, hindexes, h⟩ := Result.bind_eq_ok_iff.mp h
  obtain rfl := Except.ok.inj h
  have hall := Result.map_eq_of_mapM_eq_ok
    (g := fun x => m.withColumns.completeIndex typeName x.1 x.2)
    (k := Except.ok) hindexes fun _ _ hx => hx
  have hplace : m.withColumns.table.indexes.zipIdx[n]? = some (index, n) := by
    rw [List.getElem?_zipIdx, Nat.zero_add]
    exact congrArg (Option.map fun index => (index, n)) hindex
  have hat := congrArg (·[n]?) hall
  simp only [List.getElem?_map, hplace, Option.map_some] at hat
  obtain ⟨index', hindex', hcomplete⟩ := Option.map_eq_some_iff.mp hat.symm
  have hcomplete := hcomplete.symm
  unfold completeIndex at hcomplete
  simp only at hcomplete
  split at hcomplete
  · cases hcomplete
  · obtain ⟨found, hfound, hcomplete⟩ := Result.bind_eq_ok_iff.mp hcomplete
    obtain rfl := Except.ok.inj hcomplete
    exact ⟨_, found, hindex', rfl, rfl, positions_of_ok hfound, rfl⟩

section Listed
variable {nameOf : Nat → String} {fields : List Nat} (h : m.sealed typeName = .ok m')
  (hfields : ∀ i ∈ fields, i < m.fields.length)
include h hfields

/-- A key that has been listed by names is made up of its fields exactly if these are found again,
and if there are any or none are flagged. -/
theorem key_eq_iff_of_sealed (hkey : m.table.primaryKey = fields.map nameOf) :
    m'.table.primaryKey = fields.map m'.nameAt ↔
      (∀ i ∈ fields, m.Denotes (nameOf i) i) ∧ (fields = [] → m.flaggedKey = []) := by
  obtain ⟨positions, hpositions⟩ := exists_sealedAs h
  obtain ⟨found, hfound, hsealed⟩ := key_of_sealed h
  have hnames : m'.nameAt = m.nameAt := funext hpositions.nameAt_eq
  rw [hsealed, hnames]
  cases fields with
  | nil =>
    have hflagged : m.withColumns.keyNames = m.flaggedKey := if_pos (List.isEmpty_iff.mpr hkey)
    rw [hflagged] at hfound
    rw [List.map_nil, List.map_eq_nil_iff, ← List.map_eq_nil_iff (f := some), ← hfound,
      List.map_eq_nil_iff]
    exact ⟨fun hnone => ⟨nofun, fun _ => hnone⟩, fun hnone => hnone.2 rfl⟩
  | cons i rest =>
    have hlisted : m.withColumns.keyNames = (i :: rest).map nameOf := by
      refine (if_neg ?_).trans hkey
      rw [List.isEmpty_iff]
      change m.table.primaryKey ≠ []
      rw [hkey]
      exact List.cons_ne_nil _ _
    rw [hlisted] at hfound
    rw [map_nameAt_eq_iff hpositions.distinct hfields hfound]
    exact ⟨fun hall => ⟨hall, nofun⟩, fun hall => hall.1⟩

/-- An index that has been listed by names is over its fields exactly if these are found again. -/
theorem index_eq_iff_of_sealed {n : Nat} {name : String} {kind : IndexKind}
    (hindex : m.table.indexes[n]? = some ⟨name, kind, fields.map nameOf⟩) :
    ∃ index : Index, m'.table.indexes[n]? = some index ∧ index.kind = kind ∧
      (name ≠ "" → index.name = name) ∧
      (index.columns = fields.map m'.nameAt ↔ ∀ i ∈ fields, m.Denotes (nameOf i) i) := by
  obtain ⟨positions, hpositions⟩ := exists_sealedAs h
  obtain ⟨index, found, hplace, hkind, hname, hfound, hcolumns⟩ := index_of_sealed h hindex
  have hnames : m'.nameAt = m.nameAt := funext hpositions.nameAt_eq
  refine ⟨index, hplace, hkind, fun hgiven => hname.trans (if_neg hgiven), ?_⟩
  rw [hcolumns, hnames]
  exact map_nameAt_eq_iff hpositions.distinct hfields hfound

end Listed

end Mapping

namespace RefinementScope

variable {s : RefinementScope} {m m' : Mapping} {r : Refinement} {rs : List Refinement}

/-- From `m` to `m'` fields have only been changed and indexes only been added; the key and the
names of the columns are those from before unless one of the refinements is about them. -/
structure Refines (rs : List Refinement) (m m' : Mapping) : Prop where
  length_eq : m'.fields.length = m.fields.length
  indexes : m.table.indexes <+: m'.table.indexes
  key : (∀ r ∈ rs, r.listsKey = false) → m'.table.primaryKey = m.table.primaryKey
  names : (∀ r ∈ rs, r.renames = false) → ∀ i, m'.nameAt i = m.nameAt i

theorem Refines.refl (m : Mapping) : Refines [] m m where
  length_eq := rfl
  indexes := List.prefix_refl _
  key _ := rfl
  names _ _ := rfl

theorem Refines.cons {next : Mapping} (hfirst : Refines [r] m next) (hrest : Refines rs next m') :
    Refines (r :: rs) m m' where
  length_eq := hrest.length_eq.trans hfirst.length_eq
  indexes := hfirst.indexes.trans hrest.indexes
  key h := by
    rw [List.forall_mem_cons] at h
    exact (hrest.key h.2).trans (hfirst.key (List.forall_mem_singleton.mpr h.1))
  names h i := by
    rw [List.forall_mem_cons] at h
    exact (hrest.names h.2 i).trans (hfirst.names (List.forall_mem_singleton.mpr h.1) i)

theorem nameAt_modify (m : Mapping) (i j : Nat) {change : Column → Column}
    (hchange : ∀ c, (change c).name = c.name) :
    Mapping.nameAt { m with fields := m.fields.modify i fun f =>
      { f with column := change f.column } } j = m.nameAt j := by
  rw [Mapping.nameAt, Mapping.nameAt, List.getElem?_modify]
  cases m.fields[j]? with
  | none => rfl
  | some f => by_cases hi : i = j <;> simp [hi, hchange]

theorem refines_changeColumn {field : Reference} {change : Column → Column}
    (h : s.changeColumn m field change = .ok m')
    (hchange : r.renames = false → ∀ c, (change c).name = c.name) : Refines [r] m m' := by
  obtain ⟨i, -, rfl⟩ := Result.map_eq_ok_iff.mp h
  refine ⟨List.length_modify _ _ _, List.prefix_refl _, fun _ => rfl, fun hnames j => ?_⟩
  exact nameAt_modify m i j (hchange (hnames r (List.mem_singleton_self r)))

theorem refines_apply (h : s.apply m r = .ok m') : Refines [r] m m' := by
  cases r with
  | tableName | schemaName | version | memoryTable | createIfMissing =>
    obtain rfl := Except.ok.inj h
    exact ⟨rfl, List.prefix_refl _, fun _ => rfl, fun _ _ => rfl⟩
  | primaryKey fields =>
    obtain ⟨names, -, rfl⟩ := Result.map_eq_ok_iff.mp h
    refine ⟨rfl, List.prefix_refl _, fun hkey => ?_, fun _ _ => rfl⟩
    exact absurd (hkey _ (List.mem_singleton_self _)) Bool.true_eq_false.mp
  | index name kind fields =>
    obtain ⟨columns, -, rfl⟩ := Result.map_eq_ok_iff.mp h
    exact ⟨rfl, List.prefix_append _ _, fun _ => rfl, fun _ _ => rfl⟩
  | length | scale | trim | nullable | autoIncrement =>
    rw [apply] at h
    exact refines_changeColumn h fun _ _ => rfl
  | columnName =>
    rw [apply] at h
    exact refines_changeColumn h fun hnames => absurd hnames Bool.true_eq_false.mp

theorem refines_of_foldlM (h : rs.foldlM s.apply m = .ok m') : Refines rs m m' := by
  induction rs generalizing m with
  | nil =>
    obtain rfl := Except.ok.inj h
    exact Refines.refl m
  | cons r rest ih =>
    rw [List.foldlM_cons] at h
    obtain ⟨next, hnext, hrest⟩ := Result.bind_eq_ok_iff.mp h
    exact (refines_apply hnext).cons (ih hrest)

/-- References are taken down by the names of their columns at the time. -/
theorem columnNames_eq_ok {references : List Reference} {names : List String}
    (h : s.columnNames m references = .ok names) :
    ∃ fields : List Nat,
      references.map (s.position m) = fields.map .ok ∧ names = fields.map m.nameAt := by
  induction references generalizing names with
  | nil => exact ⟨[], rfl, (Except.ok.inj h).symm⟩
  | cons r rest ih =>
    unfold columnNames at h
    rw [List.mapM_cons] at h
    obtain ⟨name, hname, h⟩ := Result.bind_eq_ok_iff.mp h
    obtain ⟨others, hothers, h⟩ := Result.bind_eq_ok_iff.mp h
    obtain ⟨i, hi, rfl⟩ := Result.map_eq_ok_iff.mp hname
    obtain ⟨fields, hfields, rfl⟩ := ih hothers
    exact ⟨i :: fields, by rw [List.map_cons, hi, hfields, List.map_cons],
      (Except.ok.inj h).symm⟩

end RefinementScope

namespace Model

variable {model : Model} {counter : UInt32} {m : Mapping}

/-- The mapping that the refinements begin with. -/
def outline (model : Model) : Mapping := (model.description.draft {}).outline model.typeName

/-- The record that the refinements refer to, with its registry. -/
def scope (model : Model) (counter : UInt32) : RefinementScope :=
  let g := Registry.generate {} refinementOwner model.outline.fields model.initial counter
  ⟨g.registry, g.record⟩

/-- A mapping that has been built is the sealed outcome of all refinements, and all references in
them lead to positions of fields. -/
theorem exists_refined_of_build (h : (model.build counter).1 = .ok m) :
    Filled refinementOwner model.outline.fields (model.scope counter).record
        (model.scope counter).registry.current ∧
      (∀ mid r i, (model.scope counter).position mid r = .ok i → i < model.outline.fields.length) ∧
      ∃ last, model.refinements.foldlM (model.scope counter).apply model.outline = .ok last ∧
        last.sealed model.typeName = .ok m := by
  have hbuild := model.build_eq counter
  simp only at hbuild
  rw [hbuild] at h
  split at h
  · cases h
  · obtain ⟨last, hlast, hsealed⟩ := Result.bind_eq_ok_iff.mp h
    obtain ⟨⟨⟩, houtcome, hrefined⟩ := Result.bind_eq_ok_iff.mp hlast
    refine ⟨Registry.filled_generate houtcome, fun mid r i hi => ?_, last, hrefined, hsealed⟩
    obtain ⟨filled, hfill, hg⟩ := Registry.generate_of_ok houtcome
    have hregistry : (model.scope counter).registry = ({} : Registry).succeed filled.keys :=
      congrArg Generation.registry hg
    have hbound := Refill.snd_lt_of_fill hfill (List.forall_mem_nil _)
    rw [Nat.zero_add] at hbound
    unfold RefinementScope.position at hi
    split at hi
    · cases hi
    · split at hi
      · next hlookup =>
        obtain rfl := Except.ok.inj hi
        rw [hregistry, Registry.lookup_eq_current_iff] at hlookup
        obtain ⟨entry, hentry, rfl⟩ := Option.map_eq_some_iff.mp hlookup
        exact hbound entry (List.mem_of_find?_eq_some hentry)
      · cases hi
      · cases hi

/-- For every model that can be built: a reference to a field of the record leads to the last column
registered for it, and what is listed by references, wherever the refinement stands among the
others, are the columns of these fields under their final names if and only if each name that the
column had at the time leads to the field in the end. An empty list stands for the flagged columns.
If no column is renamed behind it, each name does. -/
theorem references_of_build (h : (model.build counter).1 = .ok m) :
    let s := model.scope counter
    (∀ (i : Nat) (d : FieldDeclaration), model.registrations[i]? = some d →
      Prevails model.initial.layout (model.registrations.map (·.mapping)) i d.mapping →
        ∀ mid, s.position mid (.own d.slot) = .ok i) ∧
    ∃ last, model.refinements.foldlM s.apply model.outline = .ok last ∧
      last.sealed model.typeName = .ok m ∧
      ∀ before r after, model.refinements = before ++ r :: after →
        ∃ mid, before.foldlM s.apply model.outline = .ok mid ∧
          (∀ rs, r = .primaryKey rs → (∀ r' ∈ after, r'.listsKey = false) →
            ∃ fields : List Nat, rs.map (s.position mid) = fields.map .ok ∧
              (m.table.primaryKey = fields.map m.nameAt ↔
                (∀ i ∈ fields, last.Denotes (mid.nameAt i) i) ∧
                  (fields = [] → last.flaggedKey = []))) ∧
          (∀ name kind rs, r = .index name kind rs →
            ∃ (fields : List Nat) (index : Index), rs.map (s.position mid) = fields.map .ok ∧
              m.table.indexes[mid.table.indexes.length]? = some index ∧ index.kind = kind ∧
              (name ≠ "" → index.name = name) ∧
              (index.columns = fields.map m.nameAt ↔
                ∀ i ∈ fields, last.Denotes (mid.nameAt i) i)) ∧
          ((∀ r' ∈ r :: after, r'.renames = false) →
            ∀ i < last.fields.length, last.Denotes (mid.nameAt i) i) := by
  intro s
  obtain ⟨hfilled, hbound, last, hlast, hsealed⟩ := exists_refined_of_build h
  have hfields : last.fields.length = model.outline.fields.length :=
    (RefinementScope.refines_of_foldlM hlast).length_eq
  refine ⟨fun i d hd hi mid => ?_, last, hlast, hsealed, fun before r after hsplit => ?_⟩
  · have hfield : model.outline.fields[i]? = some d.mapping :=
      List.getElem?_map.trans (congrArg (Option.map (·.mapping)) hd)
    have hlayout : s.record.layout = model.initial.layout :=
      Registry.layout_generate _ _ _ _ _
    have hposition : s.Reaches (fun _ => d.slot) i :=
      (Registry.lookup_eq_current_iff _ _ _).mpr (hfilled.position i d.mapping hfield (hlayout ▸ hi))
    exact RefinementScope.position_of_reaches hposition mid
  · rw [hsplit, List.foldlM_append] at hlast
    obtain ⟨mid, hmid, hlast⟩ := Result.bind_eq_ok_iff.mp hlast
    have hsame := (RefinementScope.refines_of_foldlM hlast).names
    rw [List.foldlM_cons] at hlast
    obtain ⟨next, hnext, hlast⟩ := Result.bind_eq_ok_iff.mp hlast
    have hafter := RefinementScope.refines_of_foldlM hlast
    have hlt {rs : List Reference} {fields : List Nat}
        (hrs : rs.map (s.position mid) = fields.map .ok) :
        ∀ i ∈ fields, i < last.fields.length := by
      intro i hi
      have hmem : Except.ok i ∈ rs.map (s.position mid) := hrs ▸ List.mem_map_of_mem hi
      obtain ⟨r, -, hr⟩ := List.mem_map.mp hmem
      exact Nat.lt_of_lt_of_eq (hbound mid r i hr) hfields.symm
    refine ⟨mid, hmid, ?_, ?_, ?_⟩
    · rintro rs rfl hlatest
      obtain ⟨names, hlisted, rfl⟩ := Result.map_eq_ok_iff.mp hnext
      obtain ⟨fields, hrs, rfl⟩ := RefinementScope.columnNames_eq_ok hlisted
      have hkey : last.table.primaryKey = fields.map mid.nameAt := hafter.key hlatest
      exact ⟨fields, hrs, Mapping.key_eq_iff_of_sealed hsealed (hlt hrs) hkey⟩
    · rintro name kind rs rfl
      obtain ⟨columns, hlisted, rfl⟩ := Result.map_eq_ok_iff.mp hnext
      obtain ⟨fields, hrs, rfl⟩ := RefinementScope.columnNames_eq_ok hlisted
      have hindex : last.table.indexes[mid.table.indexes.length]? =
          some ⟨name, kind, fields.map mid.nameAt⟩ := by
        obtain ⟨later, hlater⟩ := hafter.indexes
        rw [← hlater, List.getElem?_append_left (by simp)]
        exact List.getElem?_concat_length
      obtain ⟨index, hindexed⟩ := Mapping.index_eq_iff_of_sealed hsealed (hlt hrs) hindex
      exact ⟨fields, index, hrs, hindexed⟩
    · intro hplain i hi
      rw [← hsame hplain i]
      exact Mapping.denotes_nameAt hi

/-- Two fields of which the first is called `x` in the end, and the second as the first was. -/
def swapModel (refinements : List Refinement) : Model where
  id := 0
  typeName := "Swap"
  initial := {}
  description :=
    .setting (.field { fieldName := "a", slot := ["a"], type := .scalar .int64 }) <|
    .setting (.field { fieldName := "b", slot := ["b"], type := .scalar .int64 }) .done
  refinements := refinements

def swapNames : List Refinement := [.columnName (.own ["a"]) "x", .columnName (.own ["b"]) "a"]

/-- Listed behind the names, the key is the first column. -/
theorem references_of_build_swap :
    ∃ m, ((swapModel (swapNames ++ [.primaryKey [.own ["a"]]])).build
        Sentinel.firstCount).1 = .ok m ∧ m.table.primaryKey = [m.nameAt 0] := by
  let model := swapModel (swapNames ++ [.primaryKey [.own ["a"]]])
  have hbuilt : ((model.build Sentinel.firstCount).1.toOption).isSome = true := by decide
  obtain ⟨m, hm⟩ := Option.isSome_iff_exists.mp hbuilt
  have hm := Result.eq_ok_of_toOption_eq_some hm
  obtain ⟨hposition, last, hlast, -, hlisted⟩ := references_of_build hm
  have hslots : DistinctSlots model.initial.layout (model.registrations.map (·.mapping)) := by
    decide
  have hown := hslots.prevails (i := 0) (f := model.registrations[0].mapping) rfl
  have hfirst := hposition 0 model.registrations[0] rfl hown
  obtain ⟨mid, -, hkey, -, hsame⟩ := hlisted swapNames _ [] rfl
  obtain ⟨fields, hfields, hiff⟩ := hkey _ rfl (List.forall_mem_nil _)
  have hone : fields.map (Except.ok (ε := Error)) = [.ok 0] := by
    rw [← hfields]
    exact congrArg (fun position => [position]) (hfirst mid)
  obtain ⟨i, rfl, hi⟩ := List.map_eq_singleton_iff.mp hone
  obtain rfl := Except.ok.inj hi
  have hlength := (RefinementScope.refines_of_foldlM hlast).length_eq
  refine ⟨m, hm, hiff.mpr ⟨fun i hi => hsame (by decide) i ?_, nofun⟩⟩
  rw [List.mem_singleton.mp hi, hlength]
  decide

/-- A key and an index over the first field come to be over the second one if its name is given
away behind them, and over the first if they are listed at the end. -/
theorem references_redirected :
    ((swapModel ([.primaryKey [.own ["a"]], .index "by_a" .unique [.own ["a"]]] ++ swapNames)).build
        Sentinel.firstCount).1.toOption.map (fun m =>
          (m.table.columns.map fun c => (c.fieldName, c.name, c.primaryKey),
            m.table.primaryKey, m.table.indexes)) =
      some ([("a", "x", false), ("b", "a", true)], ["a"], [⟨"by_a", .unique, ["a"]⟩]) ∧
    ((swapModel (swapNames ++ [.primaryKey [.own ["a"]], .index "by_a" .unique [.own ["a"]]])).build
        Sentinel.firstCount).1.toOption.map (fun m =>
          (m.table.columns.map fun c => (c.fieldName, c.name, c.primaryKey),
            m.table.primaryKey, m.table.indexes)) =
      some ([("a", "x", true), ("b", "a", false)], ["x"], [⟨"by_a", .unique, ["x"]⟩]) := by
  constructor <;> decide

end Model

end RecordMapper
