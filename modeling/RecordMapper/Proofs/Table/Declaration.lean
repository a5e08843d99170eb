import RecordMapper.Proofs.Registry.Filling
import RecordMapper.Table.Model

/-!
# Declarations

What can be said of a table and its columns in either of two ways: while it is described, or by
refinements of the model afterwards. The fields that a declaration names are told by their
positions among the fields that become columns.

In a description the settings of a field go to its registration, wherever that stands, also in the
description of an embedded record; key and indexes list columns by the names they end up with. The
refinements refer to the slots of the fields.
-/

set_option autoImplicit false

namespace RecordMapper

inductive FieldSetting
  | length (n : Nat)
  | scale (precision scale : Nat)
  | trim (n : Nat)
  | nullable (b : Bool)
  | autoIncrement
  | columnName (name : String)

inductive Declaration
  | tableName (s : String)
  | schemaName (s : String)
  | version (n : Nat)
  | memoryTable
  | createIfMissing (b : Bool)
  | primaryKey (fields : List Nat)
  | index (name : String) (kind : IndexKind) (fields : List Nat)
  | field (i : Nat) (s : FieldSetting)

namespace FieldDeclaration

def declare (d : FieldDeclaration) : FieldSetting → FieldDeclaration
  | .length n => { d with length := some n }
  | .scale precision scale => { d with length := some precision, scale := some scale }
  | .trim n => { d with length := some n, trim := true }
  | .nullable b => { d with nullable := some b }
  | .autoIncrement => { d with autoIncrement := true, primaryKey := true }
  | .columnName name => { d with columnName := some name }

def declareAll (d : FieldDeclaration) (ss : List FieldSetting) : FieldDeclaration :=
  ss.foldl declare d

def nameAt (ds : List FieldDeclaration) (i : Nat) : String := ((ds[i]?).map (·.column.name)).getD ""

end FieldDeclaration

namespace Declaration

/-- The settings of the field in position `i`. -/
def settingsOf (as : List Declaration) (i : Nat) : List FieldSetting :=
  as.filterMap fun
    | field j s => if j = i then some s else none
    | _ => none

/-- The positions of the fields that are named. -/
def fields : Declaration → List Nat
  | primaryKey fields => fields
  | index _ _ fields => fields
  | field i _ => [i]
  | _ => []

def listsColumns : Declaration → Bool
  | primaryKey _ => true
  | index _ _ _ => true
  | _ => false

def renames : Declaration → Bool
  | field _ (.columnName _) => true
  | _ => false

/-- Columns are renamed before they are listed. -/
def RenamedFirst (as : List Declaration) : Prop :=
  as.Pairwise fun a b => a.listsColumns = true → b.renames = false

/-- What is said of the table as a whole. -/
def setting? (nameAt : Nat → String) : Declaration → Option Setting
  | tableName s => some (.name s)
  | schemaName s => some (.schema s)
  | version n => some (.version n)
  | memoryTable => some .memoryTable
  | createIfMissing b => some (.createIfMissing b)
  | primaryKey fields => some (.primaryKey (fields.map nameAt))
  | index name kind fields => some (.index ⟨name, kind, fields.map nameAt⟩)
  | field _ _ => none

end Declaration

namespace Setting

def registered : Setting → Nat
  | field _ => 1
  | _ => 0

def declare (ss : List FieldSetting) : Setting → Setting
  | field d => field (d.declareAll ss)
  | s => s

end Setting

/-- The position of the first field that is not taken over. -/
def TableDraft.firstOwn (t : TableDraft) : Nat := if t.inheritColumns then t.inherited.length else 0

namespace Description

/-- Gives each registration the settings of its position: own registrations are counted from `own`,
those that are taken over from `inherited`. -/
def declareFrom (settings : Nat → List FieldSetting) :
    Description → (own inherited : Nat) → Description
  | done, _, _ => done
  | setting s rest, own, inherited =>
    setting (s.declare (settings own)) (rest.declareFrom settings (own + s.registered) inherited)
  | inherit place base rest, own, inherited =>
    inherit place
      (base.declareFrom settings (inherited + (base.draft {}).firstOwn) inherited)
      (rest.declareFrom settings own (inherited + (base.draft {}).persisted.length))

def followedBy : Description → List Setting → Description
  | done, ss => ss.foldr setting done
  | setting s rest, ss => setting s (rest.followedBy ss)
  | inherit place base rest, ss => inherit place base (rest.followedBy ss)

/-- The description with all declarations in it: the settings of the fields at their registrations,
and behind the rest what is said of the table, with columns under the names they end up with. -/
def declaring (d : Description) (as : List Declaration) : Description :=
  let changed := d.declareFrom (Declaration.settingsOf as) (d.draft {}).firstOwn 0
  let nameAt := FieldDeclaration.nameAt (changed.draft {}).persisted
  changed.followedBy (as.filterMap (Declaration.setting? nameAt))

end Description

def FieldSetting.refinement (slot : Slot) : FieldSetting → Refinement
  | length n => .length (.own slot) n
  | scale precision places => .scale (.own slot) precision places
  | trim n => .trim (.own slot) n
  | nullable b => .nullable (.own slot) b
  | autoIncrement => .autoIncrement (.own slot)
  | columnName name => .columnName (.own slot) name

def Declaration.refinement (slotAt : Nat → Slot) : Declaration → Refinement
  | tableName s => .tableName s
  | schemaName s => .schemaName s
  | version n => .version n
  | memoryTable => .memoryTable
  | createIfMissing b => .createIfMissing b
  | primaryKey fields => .primaryKey (fields.map fun i => .own (slotAt i))
  | index name kind fields => .index name kind (fields.map fun i => .own (slotAt i))
  | field i s => s.refinement (slotAt i)

/-- What the refinement makes of the column. -/
def FieldSetting.change : FieldSetting → Column → Column
  | length n, c => { c with length := some n }
  | scale precision places, c => { c with length := some precision, scale := some places }
  | trim n, c => { c with length := some n, trim := true }
  | nullable b, c => { c with nullable := b }
  | autoIncrement, c => { c with autoIncrement := true, primaryKey := true, nullable := false }
  | columnName name, c => { c with name }

namespace FieldDeclaration

@[simp] theorem declareAll_append (d : FieldDeclaration) (ss ss' : List FieldSetting) :
    d.declareAll (ss ++ ss') = (d.declareAll ss).declareAll ss' := List.foldl_append

@[simp] theorem embed_declareAll (place : String) (d : FieldDeclaration) (ss : List FieldSetting) :
    (d.declareAll ss).embed place = (d.embed place).declareAll ss := by
  induction ss generalizing d with
  | nil => rfl
  | cons s rest ih =>
    have hstep : (d.declare s).embed place = (d.embed place).declare s := by cases s <;> rfl
    exact (ih (d.declare s)).trans (congrArg (·.declareAll rest) hstep)

end FieldDeclaration

namespace TableDraft
variable (settings : Nat → List FieldSetting)

/-- The fields with their settings, the first in position `n`. -/
def declared (n : Nat) (ds : List FieldDeclaration) : List FieldDeclaration :=
  ds.mapIdx fun i d => d.declareAll (settings (n + i))

/-- The draft with the settings of its fields: own fields are counted from `own`, those that are
taken over from `inherited`. -/
def declareFrom (own inherited : Nat) (t : TableDraft) : TableDraft :=
  { t with
    fields := declared settings own t.fields
    inherited := declared settings inherited t.inherited }

theorem declared_append (n : Nat) (ds ds' : List FieldDeclaration) :
    declared settings n (ds ++ ds') =
      declared settings n ds ++ declared settings (n + ds.length) ds' := by
  rw [declared, List.mapIdx_append]
  simp only [declared, Nat.add_assoc, Nat.add_comm ds.length]

theorem persisted_declareFrom (inherited : Nat) (t : TableDraft) :
    (t.declareFrom settings (inherited + t.firstOwn) inherited).persisted =
      declared settings inherited t.persisted := by
  rw [persisted, persisted, declared_append]
  unfold declareFrom firstOwn
  cases t.inheritColumns with
  | true => rfl
  | false => rfl

theorem length_fields_apply (t : TableDraft) (s : Setting) :
    (t.apply s).fields.length = t.fields.length + s.registered := by
  cases s with
  | field d => exact List.length_append
  | _ => rfl

@[simp] theorem inherited_apply (t : TableDraft) (s : Setting) :
    (t.apply s).inherited = t.inherited := by
  cases s <;> rfl

theorem declareFrom_apply (own inherited : Nat) (t : TableDraft) (s : Setting) :
    (t.declareFrom settings own inherited).apply (s.declare (settings (own + t.fields.length))) =
      (t.apply s).declareFrom settings own inherited := by
  cases s with
  | field d =>
    unfold declareFrom apply
    rw [declared_append]
    rfl
  | _ => rfl

theorem declareFrom_inherit (own inherited : Nat) (t : TableDraft) (place : String)
    (base : TableDraft) :
    (t.declareFrom settings own inherited).inherit place
        (base.declareFrom settings (inherited + t.inherited.length + base.firstOwn)
          (inherited + t.inherited.length)) =
      (t.inherit place base).declareFrom settings own inherited := by
  unfold inherit
  rw [persisted_declareFrom]
  unfold declareFrom
  congr 1
  rw [declared_append]
  congr 1
  apply List.ext_getElem?
  intro i
  simp [declared, Function.comp_def]

end TableDraft

namespace Description
variable (settings : Nat → List FieldSetting)

/-- The induction is on the description, with the draft that has come about before: from then on,
positions are counted behind the fields that it holds. -/
theorem draft_declareFrom (d : Description) {own inherited own' inherited' : Nat} (t : TableDraft)
    (hown : own' = own + t.fields.length) (htaken : inherited' = inherited + t.inherited.length) :
    (d.declareFrom settings own' inherited').draft (t.declareFrom settings own inherited) =
      (d.draft t).declareFrom settings own inherited := by
  induction d generalizing own inherited own' inherited' t with
  | done => rfl
  | setting s rest ih =>
    have hnext : own' + s.registered = own + (t.apply s).fields.length := by
      rw [TableDraft.length_fields_apply, hown, Nat.add_assoc]
    have hsame : inherited' = inherited + (t.apply s).inherited.length := by
      rw [TableDraft.inherited_apply, htaken]
    rw [hown] at hnext
    rw [declareFrom, draft, draft, hown, TableDraft.declareFrom_apply]
    exact ih (t.apply s) hnext hsame
  | inherit place base rest ihbase ih =>
    have hbase : (base.declareFrom settings (inherited' + (base.draft {}).firstOwn)
        inherited').draft {} =
          (base.draft {}).declareFrom settings (inherited' + (base.draft {}).firstOwn) inherited' :=
      ihbase {} rfl rfl
    have hnext : inherited' + (base.draft {}).persisted.length =
        inherited + (t.inherit place (base.draft {})).inherited.length := by
      change _ = inherited + (t.inherited ++ (base.draft {}).persisted.map _).length
      rw [htaken, List.length_append, List.length_map, Nat.add_assoc]
    rw [declareFrom, draft, draft, hbase, htaken, TableDraft.declareFrom_inherit]
    exact ih (t.inherit place (base.draft {})) hown (htaken ▸ hnext)

theorem draft_followedBy (d : Description) (ss : List Setting) (t : TableDraft) :
    (d.followedBy ss).draft t = ss.foldl TableDraft.apply (d.draft t) := by
  induction d generalizing t with
  | done =>
    induction ss generalizing t with
    | nil => rfl
    | cons s rest ih => exact ih (t.apply s)
  | setting s rest ih => exact ih (t.apply s)
  | inherit place base rest _ ih => exact ih (t.inherit place (base.draft {}))

end Description

namespace FieldDeclaration

@[simp] theorem site_declareAll (d : FieldDeclaration) (ss : List FieldSetting) :
    (d.declareAll ss).mapping.site = d.mapping.site := by
  induction ss generalizing d with
  | nil => rfl
  | cons s rest ih =>
    have hstep : (d.declare s).mapping.site = d.mapping.site := by cases s <;> rfl
    exact (ih (d.declare s)).trans hstep

@[simp] theorem name_declareAll (d : FieldDeclaration) {ss : List FieldSetting}
    (h : ∀ s ∈ ss, ∀ name, s ≠ .columnName name) :
    (d.declareAll ss).column.name = d.column.name := by
  induction ss generalizing d with
  | nil => rfl
  | cons s rest ih =>
    have hstep : (d.declare s).column.name = d.column.name := by
      cases s with
      | columnName name => exact absurd rfl (h _ List.mem_cons_self name)
      | _ => rfl
    exact (ih (d.declare s) fun s' hs' => h s' (List.mem_cons_of_mem s hs')).trans hstep

end FieldDeclaration

namespace TableDraft

def withFields (t : TableDraft) (inheritColumns : Bool) (fields inherited : List FieldDeclaration) :
    TableDraft :=
  { t with inheritColumns, fields, inherited }

/-- Says what is said of the table as a whole. -/
def say (nameAt : Nat → String) (t : TableDraft) (as : List Declaration) : TableDraft :=
  (as.filterMap (Declaration.setting? nameAt)).foldl apply t

/-- The draft after the declarations; none of its fields counts as taken over any more. -/
def declaring (t : TableDraft) (as : List Declaration) : TableDraft :=
  let fields := declared (Declaration.settingsOf as) 0 t.persisted
  (t.say (FieldDeclaration.nameAt fields) as).withFields false fields []

/-- The mapping that the draft describes. -/
def outline (t : TableDraft) (typeName : String) : Mapping where
  table :=
    { name := t.name.getD typeName
      schema := t.schema
      primaryKey := t.primaryKey
      indexes := t.indexes
      version := t.version
      createIfMissing := t.createIfMissing
      memoryTable := t.memoryTable }
  fields := t.persisted.map (·.mapping)

theorem finish_eq (t : TableDraft) (typeName : String) :
    t.finish typeName =
      if 1 < (t.persisted.filter (·.isPlainBool)).length then
        .error (.unsupportedModel typeName .severalBooleans)
      else .ok (t.outline typeName) := rfl

theorem say_append (nameAt : Nat → String) (t : TableDraft) (as bs : List Declaration) :
    t.say nameAt (as ++ bs) = (t.say nameAt as).say nameAt bs := by
  rw [say, List.filterMap_append, List.foldl_append]
  rfl

theorem say_withFields (nameAt : Nat → String) (t : TableDraft) (inheritColumns : Bool)
    (fields inherited : List FieldDeclaration) (as : List Declaration) :
    (t.withFields inheritColumns fields inherited).say nameAt as =
      (t.say nameAt as).withFields inheritColumns fields inherited := by
  induction as generalizing t with
  | nil => rfl
  | cons a rest ih =>
    have hstep : (t.withFields inheritColumns fields inherited).say nameAt [a] =
        (t.say nameAt [a]).withFields inheritColumns fields inherited := by
      cases a <;> rfl
    rw [← List.singleton_append, say_append, say_append, hstep]
    exact ih (t.say nameAt [a])

@[simp] theorem site_declared (settings : Nat → List FieldSetting) (n : Nat)
    (ds : List FieldDeclaration) :
    (declared settings n ds).map (·.mapping.site) = ds.map (·.mapping.site) := by
  apply List.ext_getElem?
  intro i
  simp [declared, Function.comp_def]

theorem declared_declared (settings settings' : Nat → List FieldSetting) (n : Nat)
    (ds : List FieldDeclaration) :
    declared settings' n (declared settings n ds) =
      declared (fun i => settings i ++ settings' i) n ds := by
  simp [declared, Function.comp_def]

theorem nameAt_declared {settings : Nat → List FieldSetting}
    (h : ∀ i, ∀ s ∈ settings i, ∀ name, s ≠ .columnName name) (n : Nat)
    (ds : List FieldDeclaration) :
    FieldDeclaration.nameAt (declared settings n ds) = FieldDeclaration.nameAt ds := by
  funext i
  simp only [FieldDeclaration.nameAt, declared, List.getElem?_mapIdx, Option.map_map,
    Function.comp_def, FieldDeclaration.name_declareAll _ (h _)]

/-- Declarations can be made one after the other, provided that the columns listed by the first one
are not renamed afterwards. -/
theorem declaring_cons (t : TableDraft) {a : Declaration} {as : List Declaration}
    (h : a.listsColumns = true → ∀ b ∈ as, b.renames = false) :
    t.declaring (a :: as) = (t.declaring [a]).declaring as := by
  let first := declared (Declaration.settingsOf [a]) 0 t.persisted
  let last := declared (Declaration.settingsOf (a :: as)) 0 t.persisted
  have hlast : declared (Declaration.settingsOf as) 0 first = last := by
    have hsettings : (fun i => Declaration.settingsOf [a] i ++ Declaration.settingsOf as i) =
        Declaration.settingsOf (a :: as) :=
      funext fun i => List.filterMap_append.symm
    rw [declared_declared, hsettings]
  have hnames : a.listsColumns = true →
      FieldDeclaration.nameAt last = FieldDeclaration.nameAt first := by
    intro hlists
    rw [← hlast]
    apply nameAt_declared
    rintro i s hs name rfl
    obtain ⟨b, hb, hsetting⟩ := List.mem_filterMap.mp hs
    have hplain := h hlists b hb
    cases b with
    | field j s =>
      simp only at hsetting
      split at hsetting
      · obtain rfl := Option.some.inj hsetting
        cases hplain
      · cases hsetting
    | _ => cases hsetting
  have hsay : t.say (FieldDeclaration.nameAt last) [a] =
      t.say (FieldDeclaration.nameAt first) [a] := by
    cases a with
    | primaryKey | index => rw [hnames rfl]
    | _ => rfl
  calc t.declaring (a :: as)
      = ((t.say (FieldDeclaration.nameAt last) [a]).say (FieldDeclaration.nameAt last) as).withFields
          false last [] := by rw [← say_append]; rfl
    _ = ((t.declaring [a]).say (FieldDeclaration.nameAt last) as).withFields false last [] := by
          rw [hsay, declaring, say_withFields]; rfl
    _ = (t.declaring [a]).declaring as := by rw [← hlast]; rfl

end TableDraft

/-- What is said in the description has the effect of the declarations on the draft. -/
theorem Description.outline_declaring (d : Description) (as : List Declaration) (typeName : String) :
    ((d.declaring as).draft {}).outline typeName = ((d.draft {}).declaring as).outline typeName := by
  have hchanged : (d.declareFrom (Declaration.settingsOf as) (d.draft {}).firstOwn 0).draft {} =
      (d.draft {}).declareFrom (Declaration.settingsOf as) (d.draft {}).firstOwn 0 :=
    d.draft_declareFrom _ {} rfl rfl
  have hfields := (d.draft {}).persisted_declareFrom (Declaration.settingsOf as) 0
  rw [Nat.zero_add] at hfields
  have hsay := TableDraft.say_withFields
    (FieldDeclaration.nameAt
      (TableDraft.declared (Declaration.settingsOf as) 0 (d.draft {}).persisted))
    (d.draft {}) (d.draft {}).inheritColumns
    (TableDraft.declared (Declaration.settingsOf as) (d.draft {}).firstOwn (d.draft {}).fields)
    (TableDraft.declared (Declaration.settingsOf as) 0 (d.draft {}).inherited) as
  rw [Description.declaring, draft_followedBy, hchanged, hfields]
  refine (congrArg (TableDraft.outline · typeName) hsay).trans ?_
  exact congrArg (Mapping.mk _) (congrArg (List.map (·.mapping)) hfields)

namespace Model

/-- The registrations of the fields that become columns. -/
def registrations (model : Model) : List FieldDeclaration := (model.description.draft {}).persisted

def slotAt (model : Model) (i : Nat) : Slot := ((model.registrations[i]?).map (·.slot)).getD []

/-- The model with all said in its description. -/
def described (model : Model) (as : List Declaration) : Model :=
  { model with description := model.description.declaring as }

/-- The model with all said by refinements, before those that it has. -/
def refinedBy (model : Model) (as : List Declaration) : Model :=
  { model with refinements := as.map (·.refinement model.slotAt) ++ model.refinements }

end Model

end RecordMapper
