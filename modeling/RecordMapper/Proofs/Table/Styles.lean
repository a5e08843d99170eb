import RecordMapper.Proofs.Table.Declaration
import RecordMapper.Proofs.Table.Description
import RecordMapper.Proofs.Table.Settled
import RecordMapper.Workspace

/-!
# The two ways to declare a table agree

It makes no difference whether something is said in a model's description or by its refinements:
the same tables come about, and the same errors. A refinement refers to a field by its slot. Where
a slot has been registered more than once, or fields that take up no room stand at one place, it
leads to the last of the columns only, while in a description each registration has settings of its
own.
-/

set_option autoImplicit false

namespace RecordMapper

/-- The declared column is the changed one, as far as its nullability matters. -/
@[simp] theorem FieldDeclaration.column_declare (d : FieldDeclaration) (x : FieldSetting) :
    (d.declare x).column = (x.change d.column).settled := by
  cases x <;> simp [declare, column, FieldSetting.change, Column.settled]

@[simp] theorem FieldDeclaration.settled_mapping (d : FieldDeclaration) :
    d.mapping.settled = d.mapping := by
  simp [mapping, column, FieldMapping.settled, Column.settled]

namespace TableDraft
variable (t : TableDraft) (typeName : String)

theorem settled_outline (table : Table) :
    Mapping.settled ⟨table, (t.outline typeName).fields⟩ = ⟨table, (t.outline typeName).fields⟩ := by
  refine congrArg (Mapping.mk table) ?_
  change (t.persisted.map (·.mapping)).map (·.settled) = t.persisted.map (·.mapping)
  rw [List.map_map]
  exact List.map_congr_left fun d _ => d.settled_mapping

/-- Truth values recognised by value are counted by the types of the fields. -/
theorem length_plainBools : (t.persisted.filter (·.isPlainBool)).length =
    ((t.outline typeName).fields.map (·.site)).countP fun x => x.2.1.isPlainBool := by
  rw [← List.countP_eq_length_filter, outline, List.map_map, List.countP_map]
  rfl

theorem sites_declaring (as : List Declaration) :
    ((t.declaring as).outline typeName).fields.map (·.site) =
      (t.outline typeName).fields.map (·.site) := by
  have hsites := site_declared (Declaration.settingsOf as) 0 t.persisted
  change ((declared (Declaration.settingsOf as) 0 t.persisted).map (·.mapping)).map (·.site) =
    (t.persisted.map (·.mapping)).map (·.site)
  rw [List.map_map, List.map_map]
  exact hsites

theorem nameAt_outline : (t.outline typeName).nameAt = FieldDeclaration.nameAt t.persisted := by
  funext i
  rw [Mapping.nameAt, outline, List.getElem?_map, Option.map_map]
  rfl

/-- What is said of the table as a whole leaves the fields alone. -/
theorem outline_declaring_of_plain {as : List Declaration}
    (h : ∀ i, Declaration.settingsOf as i = []) :
    (t.declaring as).outline typeName =
      ⟨((t.say (FieldDeclaration.nameAt t.persisted) as).outline typeName).table,
        (t.outline typeName).fields⟩ := by
  have hfields : declared (Declaration.settingsOf as) 0 t.persisted = t.persisted := by
    apply List.ext_getElem?
    intro i
    simp [declared, h, FieldDeclaration.declareAll]
  rw [declaring, hfields]
  rfl

/-- What is said of a field changes its column. -/
theorem outline_declaring_field (i : Nat) (x : FieldSetting) :
    (t.declaring [.field i x]).outline typeName =
      ⟨(t.outline typeName).table, ((t.outline typeName).fields.modify i fun f =>
        { f with column := x.change f.column }).map FieldMapping.settled⟩ := by
  refine congrArg (Mapping.mk _) ?_
  change (declared (Declaration.settingsOf [.field i x]) 0 t.persisted).map (·.mapping) = _
  apply List.ext_getElem?
  intro j
  rw [List.getElem?_map, List.getElem?_map, List.getElem?_modify, declared, List.getElem?_mapIdx,
    outline, List.getElem?_map]
  cases t.persisted[j]? with
  | none => rfl
  | some d =>
    refine congrArg some ?_
    rw [Nat.zero_add]
    by_cases hj : i = j
    · have hsettings : Declaration.settingsOf [.field i x] j = [x] := by
        simp [Declaration.settingsOf, hj]
      rw [hsettings]
      change (d.declare x).mapping = _
      simp only [hj, if_true, FieldDeclaration.mapping, d.column_declare]
      cases x <;> rfl
    · have hsettings : Declaration.settingsOf [.field i x] j = [] := by
        simp [Declaration.settingsOf, hj]
      rw [hsettings]
      simp only [hj, if_false]
      exact d.settled_mapping.symm

end TableDraft

namespace RefinementScope
variable (s : RefinementScope) {slotAt : Nat → Slot}

/-- The slot of the field in position `i` leads to this position. -/
def Reaches (slotAt : Nat → Slot) (i : Nat) : Prop :=
  s.registry.lookup (s.record.key refinementOwner (slotAt i)) = .current i

variable {s}

theorem position_of_reaches {i : Nat} (h : s.Reaches slotAt i) (m : Mapping) :
    s.position m (.own (slotAt i)) = .ok i := by
  unfold position
  simp only [key?]
  rw [h]

theorem columnNames_of_reaches {fields : List Nat} (h : ∀ i ∈ fields, s.Reaches slotAt i)
    (m : Mapping) :
    s.columnNames m (fields.map fun i => .own (slotAt i)) = .ok (fields.map m.nameAt) := by
  induction fields with
  | nil => rfl
  | cons i rest ih =>
    have hfirst := position_of_reaches (h i List.mem_cons_self) m
    have hrest := ih fun j hj => h j (List.mem_cons_of_mem i hj)
    unfold columnNames at hrest ⊢
    rw [List.map_cons, List.mapM_cons, hfirst, hrest]
    rfl

theorem apply_refinement (s : RefinementScope) (m : Mapping) (slot : Slot) (x : FieldSetting) :
    s.apply m (x.refinement slot) = s.changeColumn m (.own slot) x.change := by
  cases x <;> rfl

theorem apply_outline (t : TableDraft) (typeName : String) {a : Declaration}
    (h : ∀ i ∈ a.fields, s.Reaches slotAt i) :
    (s.apply (t.outline typeName) (a.refinement slotAt)).map Mapping.settled =
      .ok ((t.declaring [a]).outline typeName) := by
  cases a with
  | field i x =>
    rw [Declaration.refinement, apply_refinement, changeColumn,
      position_of_reaches (h i List.mem_cons_self)]
    rw [t.outline_declaring_field]
    rfl
  | primaryKey fields | index _ _ fields =>
    have hreach : ∀ i ∈ fields, s.Reaches slotAt i := h
    have hnames := columnNames_of_reaches hreach (t.outline typeName)
    rw [TableDraft.nameAt_outline] at hnames
    rw [t.outline_declaring_of_plain typeName fun _ => rfl, Declaration.refinement, apply, hnames]
    exact congrArg Except.ok (t.settled_outline typeName _)
  | _ =>
    rw [t.outline_declaring_of_plain typeName fun _ => rfl]
    exact congrArg Except.ok (t.settled_outline typeName _)

theorem refine_outline (t : TableDraft) (typeName : String) {as : List Declaration}
    (h : ∀ a ∈ as, ∀ i ∈ a.fields, s.Reaches slotAt i) (horder : Declaration.RenamedFirst as) :
    ((as.map (·.refinement slotAt)).foldlM s.apply (t.outline typeName)).map Mapping.settled =
      .ok ((t.declaring as).outline typeName) := by
  induction as generalizing t with
  | nil =>
    rw [t.outline_declaring_of_plain typeName fun _ => rfl]
    exact congrArg Except.ok (t.settled_outline typeName _)
  | cons a rest ih =>
    obtain ⟨hfirst, hrest⟩ := List.pairwise_cons.mp horder
    obtain ⟨next, hnext, hsettled⟩ := Result.map_eq_ok_iff.mp
      (apply_outline t typeName (h a List.mem_cons_self))
    have hothers := ih (t.declaring [a]) (fun b hb => h b (List.mem_cons_of_mem a hb)) hrest
    rw [← hsettled, refine_settled] at hothers
    have hcons := t.declaring_cons fun hlists b hb => hfirst b hb hlists
    rw [List.map_cons, List.foldlM_cons, hnext, hcons]
    exact hothers

end RefinementScope

namespace Model

/-- Every field that is named becomes a column, and no column behind it shares its slot. -/
def Names (model : Model) (as : List Declaration) : Prop :=
  ∀ a ∈ as, ∀ i ∈ a.fields, ∃ d, model.registrations[i]? = some d ∧
    Prevails model.initial.layout (model.registrations.map (·.mapping)) i d.mapping

theorem reaches_of_names {model : Model} {as : List Declaration} (h : model.Names as)
    {g : Generation} (hlayout : g.record.layout = model.initial.layout)
    (hg : Filled refinementOwner (model.registrations.map (·.mapping)) g.record g.registry.current) :
    ∀ a ∈ as, ∀ i ∈ a.fields, RefinementScope.Reaches ⟨g.registry, g.record⟩ model.slotAt i := by
  intro a ha i hi
  obtain ⟨d, hd, hlast⟩ := h a ha i hi
  have hslot : model.slotAt i = d.slot := by
    rw [slotAt, hd]
    rfl
  have hfield : (model.registrations.map (·.mapping))[i]? = some d.mapping := by
    rw [List.getElem?_map, hd]
    rfl
  have hposition : Registry.position? g.registry.current (g.record.key refinementOwner d.slot) =
      some i :=
    hg.position i d.mapping hfield (hlayout ▸ hlast)
  rw [RefinementScope.Reaches, hslot, Registry.lookup]
  simp only
  rw [hposition]

theorem build_eq (model : Model) (counter : UInt32) :
    let outline := (model.description.draft {}).outline model.typeName
    let g := Registry.generate {} refinementOwner outline.fields model.initial counter
    model.build counter =
      if 1 < (outline.fields.map (·.site)).countP fun x => x.2.1.isPlainBool then
        (.error (.unsupportedModel model.typeName .severalBooleans), counter)
      else (model.refined outline g >>= fun m => m.sealed model.typeName, g.counter) := by
  intro outline g
  rw [build, TableDraft.finish_eq, TableDraft.length_plainBools _ model.typeName]
  by_cases hseveral : 1 < (outline.fields.map (·.site)).countP fun x => x.2.1.isPlainBool
  · rw [if_pos hseveral, if_pos hseveral]
  · rw [if_neg hseveral, if_neg hseveral]

theorem sealed_congr {x y : Result Mapping} (h : x.map Mapping.settled = y.map Mapping.settled)
    (typeName : String) :
    (x >>= fun m => m.sealed typeName) = y >>= fun m => m.sealed typeName := by
  have hmap (x : Result Mapping) : (x >>= fun m => m.sealed typeName) =
      x.map Mapping.settled >>= fun m => m.sealed typeName := by
    cases x with
    | error e => rfl
    | ok m => exact (m.sealed_settled typeName).symm
  rw [hmap x, hmap y, h]

/-- The refinements of the model itself then find the same columns. -/
theorem refined_described {model : Model} {as : List Declaration} (hnamed : model.Names as)
    (horder : Declaration.RenamedFirst as) (counter : UInt32) :
    let t := model.description.draft {}
    let g := Registry.generate {} refinementOwner (t.outline model.typeName).fields model.initial
      counter
    ((model.described as).refined ((t.declaring as).outline model.typeName) g).map Mapping.settled =
      ((model.refinedBy as).refined (t.outline model.typeName) g).map Mapping.settled := by
  intro t g
  unfold refined
  cases hg : g.outcome with
  | error e => rfl
  | ok u =>
    have hreach : ∀ a ∈ as, ∀ i ∈ a.fields,
        RefinementScope.Reaches ⟨g.registry, g.record⟩ model.slotAt i :=
      reaches_of_names hnamed (Registry.layout_generate _ _ _ _ _) (Registry.filled_generate hg)
    have hsaid := RefinementScope.refine_outline t model.typeName hreach horder
    have happend : (model.refinedBy as).refinements =
        as.map (·.refinement model.slotAt) ++ model.refinements := rfl
    obtain ⟨m, hm, hsettled⟩ := Result.map_eq_ok_iff.mp hsaid
    rw [happend, List.foldlM_append, hm, ← hsettled]
    exact RefinementScope.refine_settled _ m model.refinements

/-- Whether the declarations are part of the description or refinements of the model, the outcome is
the same mapping or the same error, and leaves the same workspace behind. -/
theorem styles_agree {model : Model} {as : List Declaration} (hnamed : model.Names as)
    (horder : Declaration.RenamedFirst as) :
    (∀ counter, (model.described as).build counter = (model.refinedBy as).build counter) ∧
      ∀ w : Workspace, w.describe (model.described as) = w.describe (model.refinedBy as) := by
  have hbuild (counter : UInt32) :
      (model.described as).build counter = (model.refinedBy as).build counter := by
    have houtline :
        ((model.described as).description.draft {}).outline (model.described as).typeName =
          ((model.description.draft {}).declaring as).outline model.typeName :=
      model.description.outline_declaring as model.typeName
    have hsites := (model.description.draft {}).sites_declaring model.typeName as
    have hseal := sealed_congr (refined_described hnamed horder counter) model.typeName
    have hdescribed := (model.described as).build_eq counter
    have hrefined := (model.refinedBy as).build_eq counter
    simp only at hdescribed hrefined hseal
    rw [houtline, hsites, Registry.generate_congr hsites] at hdescribed
    rw [hdescribed, hrefined]
    by_cases hseveral : 1 < (((model.description.draft {}).outline model.typeName).fields.map
        (·.site)).countP fun x => x.2.1.isPlainBool
    · rw [if_pos hseveral]
      exact (if_pos hseveral).symm
    · rw [if_neg hseveral]
      exact (congrArg (·, _) hseal).trans (if_neg hseveral).symm
  refine ⟨hbuild, ?_⟩
  intro w
  unfold Workspace.describe
  rw [hbuild]
  rfl

/-- Where the registered fields are distinct slots, every field that becomes a column can be
named. -/
theorem names_of_distinctSlots {model : Model} {as : List Declaration}
    (h : DistinctSlots model.initial.layout (model.registrations.map (·.mapping)))
    (hbound : ∀ a ∈ as, ∀ i ∈ a.fields, i < model.registrations.length) : model.Names as := by
  intro a ha i hi
  have hd := List.getElem?_eq_getElem (hbound a ha i hi)
  refine ⟨_, hd, h.prevails ?_⟩
  rw [List.getElem?_map, hd, Option.map_some]

/-- A parcel takes over the place from the record of its origin. -/
def parcelModel : Model where
  id := 0
  typeName := "Parcel"
  initial := {}
  description :=
    .inherit "origin"
      (.setting (.field { fieldName := "place", slot := ["place"], type := .scalar .string })
        .done) <|
    .setting .inheritColumns <|
    .setting (.field { fieldName := "id", slot := ["id"], type := .scalar .int64 }) <|
    .setting (.field { fieldName := "weight", slot := ["weight"], type := .scalar .decimal }) <|
    .setting (.field
      { fieldName := "label", slot := ["label"], type := .optional (.scalar .string) }) .done

def parcelDeclarations : List Declaration :=
  [.tableName "parcels", .field 3 (.columnName "note"), .field 1 .autoIncrement,
    .field 1 (.nullable true), .field 2 (.scale 10 2), .field 3 (.trim 40), .primaryKey [1, 0],
    .index "" .unique [3, 0], .createIfMissing false]

def parcelTable : Table where
  name := "parcels"
  columns :=
    [{ name := "place", fieldName := "place", sqlType := .varchar, primaryKey := true },
      { name := "id", fieldName := "id", sqlType := .bigInt, primaryKey := true,
        autoIncrement := true, isByValue := true },
      { name := "weight", fieldName := "weight", sqlType := .decimal, length := some 10,
        scale := some 2 },
      { name := "note", fieldName := "label", sqlType := .varchar, length := some 40, trim := true,
        nullable := true }]
  primaryKey := ["id", "place"]
  indexes := [⟨"parcels_0", .unique, ["note", "place"]⟩]
  createIfMissing := false

theorem styles_agree_parcels :
    parcelModel.Names parcelDeclarations ∧ Declaration.RenamedFirst parcelDeclarations ∧
      (parcelModel.described parcelDeclarations).build Sentinel.firstCount =
        (parcelModel.refinedBy parcelDeclarations).build Sentinel.firstCount ∧
      ((parcelModel.refinedBy parcelDeclarations).build Sentinel.firstCount).1.toOption.map
        (·.table) = some parcelTable := by
  have hnamed : parcelModel.Names parcelDeclarations :=
    names_of_distinctSlots (by decide) (by decide)
  have horder : Declaration.RenamedFirst parcelDeclarations := by
    unfold Declaration.RenamedFirst
    decide
  refine ⟨hnamed, horder, (styles_agree hnamed horder).1 _, ?_⟩
  decide +kernel

/-- A ticket keeps its code in two columns. -/
def ticketModel : Model where
  id := 0
  typeName := "Ticket"
  initial := {}
  description :=
    .setting (.field { fieldName := "code", slot := ["code"], type := .scalar .string }) <|
    .setting (.field { fieldName := "short", slot := ["code"], type := .scalar .string }) .done

/-- A badge has two enumerations with a single member, which stand at one place. -/
def badgeModel : Model where
  id := 0
  typeName := "Badge"
  initial := @Record.mk [] ⟨[(["right"], ["left"])]⟩
  description :=
    let sole (name : String) : Setting :=
      .field
        { fieldName := name, slot := [name], type := .enumeration ⟨"Sole", [{ name := "Only" }]⟩ }
    .setting (sole "left") <| .setting (sole "right") .done

def originPlace : FieldDeclaration where
  fieldName := "place"
  slot := ["place"]
  type := .scalar .string

/-- A ticket that has the record of its origin without taking over the place. -/
def ticketOfOrigin (place : FieldDeclaration) (refinements : List Refinement) : Model where
  id := 0
  typeName := "Ticket"
  initial := {}
  description :=
    .inherit "origin" (.setting (.field place) .done) <|
    .setting (.field { fieldName := "code", slot := ["code"], type := .scalar .string }) .done
  refinements := refinements

/-- Said of the first of two columns of one slot, or of two fields at one place, a length goes to
this column in the description, but to the other one as a refinement. Said of a field that does not
become a column, it has no effect in the description, but is refused as a refinement. -/
theorem styles_differ_on_shared_slot :
    ((ticketModel.described [.field 0 (.length 5)]).build Sentinel.firstCount).1.toOption.map
        (fun m => m.table.columns.map fun c => (c.name, c.length)) =
      some [("code", some 5), ("short", none)] ∧
    ((ticketModel.refinedBy [.field 0 (.length 5)]).build Sentinel.firstCount).1.toOption.map
        (fun m => m.table.columns.map fun c => (c.name, c.length)) =
      some [("code", none), ("short", some 5)] ∧
    ((badgeModel.described [.field 0 (.length 5)]).build Sentinel.firstCount).1.toOption.map
        (fun m => m.table.columns.map fun c => (c.name, c.length)) =
      some [("left", some 5), ("right", none)] ∧
    ((badgeModel.refinedBy [.field 0 (.length 5)]).build Sentinel.firstCount).1.toOption.map
        (fun m => m.table.columns.map fun c => (c.name, c.length)) =
      some [("left", none), ("right", some 5)] ∧
    ((ticketOfOrigin (originPlace.declare (.length 5)) []).build
        Sentinel.firstCount).1.toOption.map (fun m => m.table.columns.map fun c => (c.name, c.length)) =
      some [("code", none)] ∧
    ((ticketOfOrigin originPlace [.length (.own ["origin", "place"]) 5]).build
        Sentinel.firstCount).1 =
      .error (.unmappedField (.notOfTable "Ticket")) := by
  refine ⟨?_, ?_, ?_, ?_, ?_, ?_⟩
  · decide
  · decide
  · decide
  · decide
  · decide
  · rfl

end Model

end RecordMapper
