import RecordMapper.Proofs.Table.Reference

/-!
# Fields of embedded records

A description is a tree: the records that are embedded have descriptions of their own. What is
offered to the outside is a list of registrations, each with the path to the embedded record that
it is made for. The registrations of a record are always offered, behind those of the records
embedded in it if it takes over columns; whether it does is said anywhere in its description.

Building a model makes one field of each registration that is offered, in order. The field reads
and writes what the registration alone would read and write in the embedded record at its path.
-/

set_option autoImplicit false

namespace RecordMapper

/-- The field seen from a record that embeds the field's record at the path. -/
def FieldDeclaration.atPath (path : Slot) (d : FieldDeclaration) : FieldDeclaration :=
  { d with slot := path ++ d.slot }

namespace Description

/-- Whether the columns of embedded records are taken over. -/
def takesOver : Description → Bool
  | done => false
  | setting .inheritColumns _ => true
  | setting _ rest => rest.takesOver
  | inherit _ _ rest => rest.takesOver

/-- The registrations of the record itself. -/
def own : Description → List FieldDeclaration
  | done => []
  | setting (.field d) rest => d :: rest.own
  | setting _ rest => rest.own
  | inherit _ _ rest => rest.own

/-- The records embedded in the record. -/
def embedded : Description → List (String × Description)
  | done => []
  | setting _ rest => rest.embedded
  | inherit place base rest => (place, base) :: rest.embedded

/-- What the embedded records offer. -/
def ofEmbedded : Description → List (Slot × FieldDeclaration)
  | done => []
  | setting _ rest => rest.ofEmbedded
  | inherit place base rest =>
    let offered := (if base.takesOver then base.ofEmbedded else []) ++ base.own.map ([], ·)
    offered.map (fun x => (place :: x.1, x.2)) ++ rest.ofEmbedded

/-- The registrations that are offered, each behind the path to its record. -/
def offered (d : Description) : List (Slot × FieldDeclaration) :=
  (if d.takesOver then d.ofEmbedded else []) ++ d.own.map ([], ·)

/-- The path leads from the first record to the other one, and every record on it but the last takes
over the columns of the records embedded in it. -/
inductive Reaches : Description → Slot → Description → Prop
  | self (d : Description) : Reaches d [] d
  | embedded {d base target : Description} {place : String} {path : Slot}
    (takes : d.takesOver = true) (mem : (place, base) ∈ d.embedded)
    (reaches : Reaches base path target) : Reaches d (place :: path) target

variable {d : Description} {path : Slot} {x : FieldDeclaration}

theorem ofEmbedded_eq (d : Description) : d.ofEmbedded =
    d.embedded.flatMap fun (place, base) => base.offered.map fun x => (place :: x.1, x.2) := by
  induction d with
  | done => rfl
  | setting s rest ih => exact ih
  | inherit place base rest _ ih =>
    rw [embedded, List.flatMap_cons, ← ih]
    rfl

theorem mem_ofEmbedded_iff : (path, x) ∈ d.ofEmbedded ↔
    ∃ place base inner, (place, base) ∈ d.embedded ∧ path = place :: inner ∧
      (inner, x) ∈ base.offered := by
  rw [ofEmbedded_eq, List.mem_flatMap]
  constructor
  · rintro ⟨⟨place, base⟩, hbase, hx⟩
    obtain ⟨⟨inner, y⟩, hy, heq⟩ := List.mem_map.mp hx
    obtain ⟨rfl, rfl⟩ := Prod.mk.inj heq
    exact ⟨place, base, inner, hbase, rfl, hy⟩
  · rintro ⟨place, base, inner, hbase, rfl, hx⟩
    exact ⟨(place, base), hbase, List.mem_map.mpr ⟨(inner, x), hx, rfl⟩⟩

theorem nil_mem_offered_iff : ([], x) ∈ d.offered ↔ x ∈ d.own := by
  have hnone : ([], x) ∉ d.ofEmbedded := by
    rw [mem_ofEmbedded_iff]
    rintro ⟨place, base, inner, -, hpath, -⟩
    cases hpath
  rw [offered, List.mem_append]
  constructor
  · rintro (h | h)
    · split at h
      · exact absurd h hnone
      · cases h
    · obtain ⟨y, hy, heq⟩ := List.mem_map.mp h
      exact (Prod.mk.inj heq).2 ▸ hy
  · intro h
    exact .inr (List.mem_map_of_mem h)

theorem cons_mem_offered_iff {place : String} {inner : Slot} :
    (place :: inner, x) ∈ d.offered ↔
      d.takesOver = true ∧ ∃ base, (place, base) ∈ d.embedded ∧ (inner, x) ∈ base.offered := by
  have hown : (place :: inner, x) ∉ d.own.map (([] : Slot), ·) := by
    intro h
    obtain ⟨y, -, heq⟩ := List.mem_map.mp h
    cases heq
  rw [offered, List.mem_append, or_iff_left hown]
  constructor
  · intro h
    split at h
    · next htakes =>
      obtain ⟨_, base, _, hbase, hpath, hinner⟩ := mem_ofEmbedded_iff.mp h
      obtain ⟨rfl, rfl⟩ := List.cons.inj hpath
      exact ⟨htakes, base, hbase, hinner⟩
    · cases h
  · rintro ⟨htakes, base, hbase, hinner⟩
    rw [if_pos htakes]
    exact mem_ofEmbedded_iff.mpr ⟨place, base, inner, hbase, rfl, hinner⟩

/-- A registration is offered exactly if every record on its path takes over columns. -/
theorem mem_offered_iff :
    (path, x) ∈ d.offered ↔ ∃ base, d.Reaches path base ∧ x ∈ base.own := by
  induction path generalizing d with
  | nil =>
    rw [nil_mem_offered_iff]
    constructor
    · intro h
      exact ⟨d, .self d, h⟩
    · rintro ⟨base, hreaches, h⟩
      cases hreaches
      exact h
  | cons place inner ih =>
    rw [cons_mem_offered_iff]
    constructor
    · rintro ⟨htakes, base, hbase, hinner⟩
      obtain ⟨target, hreaches, hx⟩ := ih.mp hinner
      exact ⟨target, .embedded htakes hbase hreaches, hx⟩
    · rintro ⟨target, hreaches, hx⟩
      cases hreaches with
      | embedded htakes hbase hreaches => exact ⟨htakes, _, hbase, ih.mpr ⟨target, hreaches, hx⟩⟩

theorem persisted_eq {t : TableDraft} (htakes : t.inheritColumns = d.takesOver)
    (hown : t.fields = d.own) (htaken : t.inherited = d.ofEmbedded.map fun x => x.2.atPath x.1) :
    t.persisted = d.offered.map fun x => x.2.atPath x.1 := by
  have hself : d.own = (d.own.map (([] : Slot), ·)).map fun x => x.2.atPath x.1 := by
    rw [List.map_map]
    exact (List.map_id _).symm
  rw [TableDraft.persisted, htakes, hown, htaken, offered, List.map_append, ← hself]
  cases d.takesOver with
  | true => rfl
  | false => rfl

/-- The induction is on the description, with the draft that has come about before; the draft of an
embedded record begins with nothing. -/
theorem draft_eq (d : Description) (t : TableDraft) :
    (d.draft t).inheritColumns = (t.inheritColumns || d.takesOver) ∧
      (d.draft t).fields = t.fields ++ d.own ∧
      (d.draft t).inherited = t.inherited ++ d.ofEmbedded.map fun x => x.2.atPath x.1 := by
  induction d generalizing t with
  | done => simp [draft, takesOver, own, ofEmbedded]
  | setting s rest ih =>
    obtain ⟨htakes, hown, htaken⟩ := ih (t.apply s)
    rw [draft, htakes, hown, htaken]
    cases s <;> simp [TableDraft.apply, takesOver, own, ofEmbedded]
  | inherit place base rest ihbase ih =>
    obtain ⟨htakes, hown, htaken⟩ := ih (t.inherit place (base.draft {}))
    have hbase : (base.draft {}).persisted = base.offered.map fun x => x.2.atPath x.1 := by
      obtain ⟨htakes, hown, htaken⟩ := ihbase {}
      exact persisted_eq htakes hown htaken
    refine ⟨htakes, hown, ?_⟩
    rw [draft, htaken, TableDraft.inherit, hbase, List.append_assoc, ofEmbedded, List.map_append,
      List.map_map, List.map_map]
    rfl

theorem persisted_draft (d : Description) :
    (d.draft {}).persisted = d.offered.map fun x => x.2.atPath x.1 := by
  obtain ⟨htakes, hown, htaken⟩ := d.draft_eq {}
  exact persisted_eq htakes hown htaken

end Description

namespace Record

/-- The entries of the record that is embedded at the path. -/
def entriesWithin (path : Slot) (entries : List (Slot × FieldValue)) : List (Slot × FieldValue) :=
  entries.filterMap fun x => (path.isPrefixOf? x.1).map (·, x.2)

/-- The content of the record that is embedded at the path. -/
def within (r : Record) (path : Slot) : Record := { entries := entriesWithin path r.entries }

variable {path slot other : Slot} {v : FieldValue} {rest : List (Slot × FieldValue)}

@[simp] theorem entriesWithin_inside (path slot : Slot) (v : FieldValue)
    (rest : List (Slot × FieldValue)) :
    entriesWithin path ((path ++ slot, v) :: rest) = (slot, v) :: entriesWithin path rest := by
  have hinner : path.isPrefixOf? (path ++ slot) = some slot :=
    List.isPrefixOf?_eq_some_iff_append_eq.mpr rfl
  exact List.filterMap_cons_some (by rw [hinner]; rfl)

theorem entriesWithin_outside (h : ∀ slot, path ++ slot ≠ other) :
    entriesWithin path ((other, v) :: rest) = entriesWithin path rest := by
  apply List.filterMap_cons_none
  rw [Option.map_eq_none_iff, Option.eq_none_iff_forall_ne_some]
  intro slot hslot
  exact h slot (List.isPrefixOf?_eq_some_iff_append_eq.mp hslot)

theorem find?_entriesWithin (path slot : Slot) (entries : List (Slot × FieldValue)) :
    find? slot (entriesWithin path entries) = find? (path ++ slot) entries := by
  induction entries with
  | nil => rfl
  | cons entry rest ih =>
    obtain ⟨other, v⟩ := entry
    by_cases h : ∃ inner, path ++ inner = other
    · obtain ⟨inner, rfl⟩ := h
      rw [entriesWithin_inside, find?, find?, ih]
      simp only [List.append_cancel_left_eq]
    · rw [not_exists] at h
      rw [entriesWithin_outside h, ih, find?, if_neg (Ne.symm (h slot))]

theorem entriesWithin_replace (path slot : Slot) (v : FieldValue)
    (entries : List (Slot × FieldValue)) :
    entriesWithin path (replace (path ++ slot) v entries) =
      replace slot v (entriesWithin path entries) := by
  induction entries with
  | nil => exact entriesWithin_inside path slot v []
  | cons entry rest ih =>
    obtain ⟨other, w⟩ := entry
    by_cases h : ∃ inner, path ++ inner = other
    · obtain ⟨inner, rfl⟩ := h
      rw [entriesWithin_inside, replace, replace]
      simp only [List.append_cancel_left_eq]
      split
      · rw [entriesWithin_inside]
      · rw [entriesWithin_inside, ih]
    · rw [not_exists] at h
      rw [entriesWithin_outside h, replace, if_neg (Ne.symm (h slot)), entriesWithin_outside h, ih]

@[simp] theorem get_within (r : Record) (path slot : Slot) :
    (r.within path).get slot = r.get (path ++ slot) :=
  congrArg (·.getD default) (find?_entriesWithin path slot r.entries)

@[simp] theorem set_within (r : Record) (path slot : Slot) (v : FieldValue) :
    (r.set (path ++ slot) v).within path = (r.within path).set slot v :=
  congrArg (fun entries => ({ entries } : Record)) (entriesWithin_replace path slot v r.entries)

end Record

namespace FieldMapping

/-- What the field holds after the value has been written to it. -/
def content (f : FieldMapping) (v : Value) : Result FieldValue := do
  let raw ← match f.adapter with
    | some adapter => adapter.fromColumn v
    | none => .ok v
  f.type.decode f.column.context raw

/-- What is stored in the column of a field that holds this. -/
def stored (f : FieldMapping) (held : FieldValue) : Result Value := do
  let raw ← held.toValue f.column.context
  let v ← match f.adapter with
    | some adapter => adapter.toColumn raw
    | none => raw.convertToSql f.column.sqlType
  return trimmed f.column v

/-- The field does to a record what the other one does to the record embedded at the path: its slot
is the one behind the path. What stands there is what is read, encoded for the column; a value that
is written is decoded and stands there afterwards, and no other slot is looked at or written. -/
structure ActsWithin (f : FieldMapping) (path : Slot) (inner : FieldMapping) : Prop where
  get : ∀ r, f.get r = inner.get (r.within path)
  reads : ∀ r, f.get r = f.stored (r.get (path ++ inner.slot))
  set : ∀ r v, (f.set r v).map (·.within path) = inner.set (r.within path) v
  setSentinel : ∀ r seq,
    (f.setSentinel r seq).map (·.within path) = inner.setSentinel (r.within path) seq
  written : ∀ r v r', f.set r v = .ok r' → f.content v = .ok (r'.get (path ++ inner.slot))
  refused : ∀ r v e, f.set r v = .error e ↔ f.content v = .error e
  filled : ∀ r seq r', f.setSentinel r seq = .ok r' →
    f.type.sentinel seq = .ok (r'.get (path ++ inner.slot))
  writes : ∀ r r', (∃ v, f.set r v = .ok r') ∨ (∃ seq, f.setSentinel r seq = .ok r') →
    ∀ slot, slot ≠ path ++ inner.slot → r'.get slot = r.get slot

theorem set_eq (f : FieldMapping) (r : Record) (v : Value) :
    f.set r v = (f.content v).map (r.set f.slot) := by
  unfold set content
  cases f.adapter with
  | none => rfl
  | some adapter =>
    change adapter.fromColumn v >>= _ = (adapter.fromColumn v >>= _).map _
    cases adapter.fromColumn v with
    | error e => rfl
    | ok raw => rfl

theorem actsWithin (f : FieldMapping) (path : Slot) :
    ActsWithin { f with slot := path ++ f.slot } path f where
  get r := by
    unfold get
    rw [Record.get_within]
  reads r := rfl
  set r v := by
    rw [set_eq, set_eq]
    change ((f.content v).map _).map _ = _
    cases f.content v with
    | error e => rfl
    | ok w => exact congrArg Except.ok (r.set_within path f.slot w)
  setSentinel r seq := by
    unfold setSentinel
    cases f.type.sentinel seq with
    | error e => rfl
    | ok w => exact congrArg Except.ok (r.set_within path f.slot w)
  written r v r' h := by
    rw [set_eq] at h
    obtain ⟨w, hw, rfl⟩ := Result.map_eq_ok_iff.mp h
    rw [Record.get_set, if_pos rfl]
    exact hw
  refused r v e := by
    rw [set_eq]
    cases content { f with slot := path ++ f.slot } v <;> simp [Except.map]
  filled r seq r' h := by
    obtain ⟨w, hw, rfl⟩ := Result.map_eq_ok_iff.mp h
    rw [Record.get_set, if_pos rfl]
    exact hw
  writes r r' h slot hslot := by
    obtain ⟨w, rfl⟩ : ∃ w, r.set (path ++ f.slot) w = r' := by
      rcases h with ⟨v, h⟩ | ⟨seq, h⟩
      · rw [set_eq] at h
        obtain ⟨w, -, h⟩ := Result.map_eq_ok_iff.mp h
        exact ⟨w, h⟩
      · obtain ⟨w, -, h⟩ := Result.map_eq_ok_iff.mp h
        exact ⟨w, h⟩
    rw [Record.get_set, if_neg (Ne.symm hslot)]

/-- The field is what the registration says, in the record embedded at the path. -/
structure Follows (f : FieldMapping) (path : Slot) (d : FieldDeclaration) : Prop where
  slot : f.slot = path ++ d.slot
  type : f.type = d.type
  adapter : f.adapter = d.adapter
  fieldName : f.column.fieldName = d.fieldName
  name : f.column.name = d.columnName.getD d.fieldName
  /-- The type of an adapter goes before a declared one, and that before the natural one. -/
  sqlType : f.column.sqlType =
    ((d.adapter.map (·.sqlType)).orElse fun _ => d.sqlType).getD (d.type.sqlType d.strategy)
  strategy : f.column.strategy = d.strategy
  length : f.column.length = d.length
  scale : f.column.scale = d.scale
  trim : f.column.trim = d.trim
  autoIncrement : f.column.autoIncrement = d.autoIncrement
  primaryKey : f.column.primaryKey = true ↔ d.primaryKey = true ∨ d.autoIncrement = true
  nullable : f.column.nullable = true ↔
    d.nullable.getD d.type.isNullable = true ∧ f.column.primaryKey = false
  isByValue : f.column.isByValue = d.type.isByValue

theorem follows_mapping (path : Slot) (d : FieldDeclaration) :
    (d.atPath path).mapping.Follows path d where
  slot := rfl
  type := rfl
  adapter := rfl
  fieldName := rfl
  name := rfl
  sqlType := by
    change (match d.adapter with
      | some adapter => adapter.sqlType
      | none => d.sqlType.getD (d.type.sqlType d.strategy)) = _
    cases d.adapter <;> rfl
  strategy := rfl
  length := rfl
  scale := rfl
  trim := rfl
  autoIncrement := rfl
  primaryKey := Bool.or_eq_true_iff
  nullable := by
    change (_ && !(d.primaryKey || d.autoIncrement)) = true ↔
      _ ∧ (d.primaryKey || d.autoIncrement) = false
    rw [Bool.and_eq_true, Bool.not_eq_true']
    rfl
  isByValue := rfl

end FieldMapping

/-- What is kept of a field, whatever refinements and sealing make of its column. -/
def FieldMapping.core (f : FieldMapping) :
    Slot × FieldType × Option Adapter × String × FieldContext :=
  (f.slot, f.type, f.adapter, f.column.fieldName, f.column.context)

namespace RefinementScope
variable {s : RefinementScope} {m m' : Mapping} {r : Refinement}

theorem core_changeColumn {field : Reference} {change : Column → Column}
    (h : s.changeColumn m field change = .ok m')
    (hname : ∀ c, (change c).fieldName = c.fieldName)
    (hcontext : ∀ c, (change c).context = c.context) :
    m'.fields.map (·.core) = m.fields.map (·.core) := by
  obtain ⟨i, -, rfl⟩ := Result.map_eq_ok_iff.mp h
  apply List.ext_getElem?
  intro j
  rw [List.getElem?_map, List.getElem?_map, List.getElem?_modify]
  cases m.fields[j]? with
  | none => rfl
  | some f => by_cases hj : i = j <;> simp [hj, FieldMapping.core, hname, hcontext]

theorem core_apply (h : s.apply m r = .ok m') :
    m'.fields.map (·.core) = m.fields.map (·.core) := by
  cases r with
  | tableName | schemaName | version | memoryTable | createIfMissing =>
    obtain rfl := Except.ok.inj h
    rfl
  | primaryKey | index =>
    obtain ⟨names, -, rfl⟩ := Result.map_eq_ok_iff.mp h
    rfl
  | length | scale | trim | nullable | autoIncrement | columnName =>
    rw [apply] at h
    exact core_changeColumn h (fun _ => rfl) (fun _ => rfl)

theorem core_of_foldlM {rs : List Refinement} (h : rs.foldlM s.apply m = .ok m') :
    m'.fields.map (·.core) = m.fields.map (·.core) := by
  induction rs generalizing m with
  | nil =>
    obtain rfl := Except.ok.inj h
    rfl
  | cons r rest ih =>
    rw [List.foldlM_cons] at h
    obtain ⟨next, hnext, hrest⟩ := Result.bind_eq_ok_iff.mp h
    exact (ih hrest).trans (core_apply hnext)

end RefinementScope

theorem Mapping.SealedAs.core_eq {m m' : Mapping} {positions : List Nat}
    (h : m.SealedAs positions m') : m'.fields.map (·.core) = m.fields.map (·.core) := by
  apply List.ext_getElem?
  intro i
  rw [List.getElem?_map, List.getElem?_map, h.getElem?_fields, Option.map_map]
  congr 1
  funext f
  by_cases hi : i ∈ positions <;> simp [hi, FieldMapping.core, FieldMapping.keyed, Column.context]

theorem FieldMapping.actsWithin_of_core {f : FieldMapping} {d : FieldDeclaration} {path : Slot}
    (h : f.core = (d.atPath path).mapping.core) :
    f.ActsWithin path { d.mapping with column := f.column } := by
  obtain ⟨column, slot, type, adapter⟩ := f
  simp only [core, Prod.mk.injEq] at h
  obtain ⟨rfl, rfl, rfl, -⟩ := h
  exact actsWithin { d.mapping with column } path

namespace Model
variable {model : Model} {counter : UInt32} {m : Mapping}

/-- The columns of a model are the registrations that its description offers, in their order, each
with all that it says of its column. Refinements change columns only, not where a field stands and
how it is stored; sealing marks the key. Each field does to a record what the registration does to
the embedded record on its path, and touches nothing else. -/
theorem inherited_fields_of_build (h : (model.build counter).1 = .ok m) :
    model.outline.fields = model.description.offered.map (fun x => (x.2.atPath x.1).mapping) ∧
    (∀ path d, (path, d) ∈ model.description.offered → (d.atPath path).mapping.Follows path d) ∧
    (∀ path d, (path, d) ∈ model.description.offered ↔
      ∃ base, model.description.Reaches path base ∧ d ∈ base.own) ∧
    m.fields.length = model.description.offered.length ∧
    ∃ last, model.refinements.foldlM (model.scope counter).apply model.outline = .ok last ∧
      ∀ (i : Nat) (path : Slot) (d : FieldDeclaration),
        model.description.offered[i]? = some (path, d) →
          ∃ f, last.fields[i]? = some f ∧ f.core = (d.atPath path).mapping.core ∧
            (model.refinements = [] → f = (d.atPath path).mapping ∧ f.Follows path d) ∧
            let g := if f.column.name ∈ m.table.primaryKey then f.keyed else f
            m.fields[i]? = some g ∧ g.ActsWithin path { d.mapping with column := g.column } := by
  obtain ⟨-, -, last, hlast, hsealed⟩ := exists_refined_of_build h
  obtain ⟨positions, hpositions⟩ := Mapping.exists_sealedAs hsealed
  have houtline : model.outline.fields =
      model.description.offered.map fun x => (x.2.atPath x.1).mapping := by
    refine (congrArg (List.map (·.mapping)) model.description.persisted_draft).trans ?_
    rw [List.map_map]
    rfl
  have hlastCore : last.fields.map (·.core) =
      model.description.offered.map fun x => (x.2.atPath x.1).mapping.core := by
    rw [RefinementScope.core_of_foldlM hlast, houtline, List.map_map]
    rfl
  have hcore := hpositions.core_eq.trans hlastCore
  refine ⟨houtline, fun path d _ => FieldMapping.follows_mapping path d,
    fun _ _ => Description.mem_offered_iff, ?_, last, hlast, ?_⟩
  · simpa only [List.length_map] using congrArg List.length hcore
  intro i path d hd
  have hmapped {α : Type} (k : Slot × FieldDeclaration → α) :
      (model.description.offered.map k)[i]? = some (k (path, d)) := by
    rw [List.getElem?_map, hd]
    rfl
  have hat := congrArg (·[i]?) hlastCore
  simp only [hmapped, List.getElem?_map] at hat
  obtain ⟨f, hf, hfcore⟩ := Option.map_eq_some_iff.mp hat
  refine ⟨f, hf, hfcore, fun hnone => ?_, ?_⟩
  · rw [hnone] at hlast
    obtain rfl := Except.ok.inj hlast
    rw [houtline, hmapped] at hf
    obtain rfl := Option.some.inj hf
    exact ⟨rfl, FieldMapping.follows_mapping path d⟩
  · intro g
    have hg : m.fields[i]? = some g := by
      rw [hpositions.getElem?_fields, hf, Option.map_some]
      simp only [g, hpositions.mem_key_iff hf]
    have hgat := congrArg (·[i]?) hcore
    simp only [hmapped, List.getElem?_map, hg, Option.map_some, Option.some.injEq] at hgat
    exact ⟨hg, FieldMapping.actsWithin_of_core hgat⟩

/-- A crate that takes over the columns of its box, with those of the tag on the box, and of its
journal. What the tag knows of its maker is not taken over. -/
def crateModel : Model where
  id := 0
  typeName := "Crate"
  initial := {}
  description :=
    let text (name : String) : Setting :=
      .field { fieldName := name, slot := [name], type := .scalar .string }
    let tag := .inherit "maker" (.setting (text "town") .done) (.setting (text "code") .done)
    let box := .setting .inheritColumns (.setting (text "width") (.inherit "tag" tag .done))
    let journal := .setting (text "author") .done
    let row : FieldDeclaration :=
      { fieldName := "row", slot := ["row"], type := .scalar .int64, primaryKey := true }
    .setting (.field row)
      (.inherit "box" box (.inherit "journal" journal (.setting .inheritColumns .done)))

example : crateModel.description.offered.map (fun x => (x.1, x.2.fieldName)) =
    [(["box", "tag"], "code"), (["box"], "width"), (["journal"], "author"), ([], "row")] := by
  decide

theorem inherited_fields_of_build_crate :
    ∃ m f, (crateModel.build Sentinel.firstCount).1 = .ok m ∧ m.fields[0]? = some f ∧
      (∀ r v, (f.set r v).map (·.within ["box", "tag"]) =
        FieldMapping.set ⟨f.column, ["code"], .scalar .string, none⟩
          (r.within ["box", "tag"]) v) ∧
      ∀ r v r', f.set r v = .ok r' → f.content v = .ok (r'.get ["box", "tag", "code"]) := by
  obtain ⟨m, hm⟩ : ∃ m, (crateModel.build Sentinel.firstCount).1 = .ok m :=
    Result.exists_eq_ok_of_isSome (by decide)
  obtain ⟨-, -, -, -, last, -, hfields⟩ := inherited_fields_of_build hm
  obtain ⟨f, -, -, -, hf, hacts⟩ := hfields 0 ["box", "tag"]
    { fieldName := "code", slot := ["code"], type := .scalar .string } rfl
  exact ⟨m, _, hm, hf, hacts.set, hacts.written⟩

end Model

end RecordMapper
