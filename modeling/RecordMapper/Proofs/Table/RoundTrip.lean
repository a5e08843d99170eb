import Mathlib.Data.List.Forall2
import RecordMapper.Proofs.Host.RoundTrip
import RecordMapper.Proofs.Registry.Generation
import RecordMapper.Proofs.Table.Writing
import RecordMapper.Table.Description

/-!
# Records that survive their row

A record is written as one value per column. A row that has these values under the names of the
columns gives the record back: the persisted fields, wherever in the embedded records they stand,
and of the record that reading begins with all else. The order of the row's columns, the case of
their names and columns of other names make no difference.
-/

set_option autoImplicit false

namespace RecordMapper

namespace Row

def cells (row : Row) : List (String × Value) := row.columns.zip row.values

/-- The row has the values under the names, in any order and in any case, and maybe further cells
under names that are none of them. -/
def Arranges (row : Row) (names : List String) (values : List Value) : Prop :=
  ∃ (shown : List String) (others : List (String × Value)),
    List.Forall₂ (fun a b => Text.sameLetters a b = true) shown names ∧
    row.cells.Perm (shown.zip values ++ others) ∧
    ∀ cell ∈ others, ∀ name ∈ names, Text.sameLetters cell.1 name = false

/-- The first cell with the name is the one that is looked up. -/
theorem get?_of_find?_cells {row : Row} {name : String} {cell : String × Value}
    (h : row.cells.find? (fun cell => Text.sameLetters cell.1 name) = some cell) :
    row.get? name = some cell.2 := by
  obtain ⟨columns, values⟩ := row
  change (columns.zip values).find? _ = _ at h
  change (columns.findIdx? _).bind (values[·]?) = _
  induction columns generalizing values with
  | nil => cases h
  | cons column columns ih =>
    cases values with
    | nil => cases h
    | cons value values =>
      rw [List.zip_cons_cons, List.find?_cons] at h
      rw [List.findIdx?_cons]
      split at h
      · next hsame =>
        obtain rfl := Option.some.inj h
        rw [if_pos hsame]
        rfl
      · next hother =>
        rw [if_neg (by simpa using hother), ← ih values h, Option.bind_map]
        rfl

variable {row : Row} {names : List String} {values : List Value} {i : Nat} {name : String}
  {v : Value}

theorem exists_mem_cells (h : row.Arranges names values) (hname : names[i]? = some name)
    (hv : values[i]? = some v) :
    ∃ shown, (shown, v) ∈ row.cells ∧ Text.sameLetters shown name = true := by
  obtain ⟨shown, others, hshown, hperm, -⟩ := h
  obtain ⟨hi, rfl⟩ := List.getElem?_eq_some_iff.mp hname
  have hi' : i < shown.length := by rwa [hshown.length_eq]
  have hzip : (shown.zip values)[i]? = some (shown[i], v) :=
    List.getElem?_zip_eq_some.mpr ⟨List.getElem?_eq_getElem hi', hv⟩
  refine ⟨shown[i], hperm.mem_iff.mpr ?_, hshown.get hi' hi⟩
  exact List.mem_append_left _ (List.mem_of_getElem? hzip)

/-- A cell with the name of a column has the value of that column, because no other column has the
name. -/
theorem value_of_mem_cells (h : row.Arranges names values) (hdistinct : DistinctNames names)
    (hname : names[i]? = some name) (hv : values[i]? = some v) {cell : String × Value}
    (hcell : cell ∈ row.cells) (hsame : Text.sameLetters cell.1 name = true) : cell.2 = v := by
  obtain ⟨shown, others, hshown, hperm, hothers⟩ := h
  rcases List.mem_append.mp (hperm.mem_iff.mp hcell) with hzip | hother
  · obtain ⟨j, hj⟩ := List.mem_iff_getElem?.mp hzip
    obtain ⟨hcellj, hvaluej⟩ := List.getElem?_zip_eq_some.mp hj
    obtain ⟨hlt, hcellj⟩ := List.getElem?_eq_some_iff.mp hcellj
    have hlt' : j < names.length := by rwa [← hshown.length_eq]
    have hshownj : Text.sameLetters cell.1 names[j] = true := by
      rw [← hcellj]
      exact hshown.get hlt hlt'
    have hnames := Text.sameLetters_trans ((Text.sameLetters_comm _ _).trans hshownj) hsame
    obtain rfl := hdistinct.index_eq (List.getElem?_eq_getElem hlt') hname hnames
    rwa [hvaluej, Option.some.injEq] at hv
  · rw [hothers cell hother name (List.mem_of_getElem? hname)] at hsame
    cases hsame

/-- Where the names can be told apart, each leads to its own value. -/
theorem get?_of_arranges (h : row.Arranges names values) (hdistinct : DistinctNames names)
    (hname : names[i]? = some name) (hv : values[i]? = some v) : row.get? name = some v := by
  obtain ⟨shown, hmem, hshown⟩ := exists_mem_cells h hname hv
  have hsome : (row.cells.find? fun cell : String × Value =>
      Text.sameLetters cell.1 name).isSome :=
    List.find?_isSome.mpr ⟨_, hmem, hshown⟩
  obtain ⟨cell, hfound⟩ := Option.isSome_iff_exists.mp hsome
  have hsame := List.find?_some hfound
  rw [get?_of_find?_cells hfound,
    value_of_mem_cells h hdistinct hname hv (List.mem_of_find?_eq_some hfound) hsame]

end Row

namespace FieldMapping
variable {f : FieldMapping} {r : Record} {v : Value}

/-- Nothing comes between the field and its column: there is no adapter, texts are not cut, and the
storage type is the natural one of a type that tells its contents apart. -/
structure IsNatural (f : FieldMapping) : Prop where
  adapter : f.adapter = none
  trim : f.column.trim = false
  sqlType : f.column.sqlType = f.type.sqlType f.column.strategy
  decodable : f.type.IsDecodable f.column.strategy

theorem IsNatural.not_cuts (h : f.IsNatural) : ¬ f.column.Cuts v := by
  rintro ⟨htrim, -⟩
  rw [h.trim] at htrim
  cases htrim

/-- The value that a field writes brings its content into any other record. -/
theorem set_of_get (h : f.IsNatural) (htype : (r.get f.slot).HasType f.type)
    (hbare : (r.get f.slot).IsBare f.column.strategy) (hget : f.get r = .ok v) :
    ∃ w, (∀ other : Record, f.set other v = .ok (other.set f.slot w)) ∧
      (r.get f.slot).ReadsAs f.column.context f.type w := by
  obtain ⟨raw, stored, hraw, hstored, hkept⟩ := exists_of_get_eq_ok h.adapter hget
  rw [(trimmed_eq_iff _ _).mpr h.not_cuts] at hkept
  rw [h.sqlType, hkept] at hstored
  obtain ⟨w, hdecode, hreads⟩ := FieldType.exists_readsAs htype h.decodable hbare hraw hstored
  refine ⟨w, fun other => ?_, hreads⟩
  rw [set, h.adapter]
  change (f.type.decode f.column.context v >>= fun content => _) = _
  rw [hdecode]
  rfl

end FieldMapping

/-- A field that is registered without an adapter, a storage type or trimming. -/
theorem FieldDeclaration.isNatural_mapping {d : FieldDeclaration} (hadapter : d.adapter = none)
    (hsql : d.sqlType = none) (htrim : d.trim = false)
    (hdecodable : d.type.IsDecodable d.strategy) : d.mapping.IsNatural where
  adapter := hadapter
  trim := htrim
  sqlType := by
    change d.column.sqlType = _
    rw [column, hadapter, hsql]
    rfl
  decodable := hdecodable

namespace Mapping
variable {m : Mapping} {r initial : Record} {row : Row} {vs : List Value}

/-- If each field finds a value in the row and puts the same content into any record, then the last
field of a slot decides what is read there. By induction on the fields. -/
theorem exists_readRow {P : FieldMapping → FieldValue → Prop}
    (h : ∀ f ∈ m.fields, ∃ v w, row.get? f.column.name = some v ∧
      (∀ other : Record, f.set other v = .ok (other.set f.slot w)) ∧ P f w) :
    ∃ r', m.readRow initial row = .ok r' ∧
      (∀ (i : Nat) (f : FieldMapping), m.fields[i]? = some f → IsLast m.fields i f.slot →
        P f (r'.get f.slot)) ∧
      ∀ slot, (∀ f ∈ m.fields, f.slot ≠ slot) → r'.get slot = initial.get slot := by
  simp only [readRow]
  generalize m.fields = fields at h
  induction fields generalizing initial with
  | nil => exact ⟨initial, rfl, by simp, fun _ _ => rfl⟩
  | cons f rest ih =>
    obtain ⟨v, w, hv, hset, hw⟩ := h f List.mem_cons_self
    obtain ⟨r', hread, hlast, hother⟩ := @ih (initial.set f.slot w)
      fun g hg => h g (List.mem_cons_of_mem f hg)
    refine ⟨r', ?_, fun i g hg hend => ?_, fun slot hslot => ?_⟩
    · rw [List.foldlM_cons]
      simp only [hv, hset]
      exact hread
    · cases i with
      | zero =>
        obtain rfl := Option.some.inj hg
        have hnone : ∀ g ∈ rest, g.slot ≠ f.slot := by
          intro g hg
          obtain ⟨j, hj⟩ := List.getElem?_of_mem hg
          exact hend (j + 1) g (Nat.succ_pos j) hj
        rw [hother f.slot hnone, Record.get_set, if_pos rfl]
        exact hw
      | succ i => exact hlast i g hg fun j g' hj => hend (j + 1) g' (Nat.succ_lt_succ hj)
    · rw [hother slot fun g hg => hslot g (List.mem_cons_of_mem f hg), Record.get_set,
        if_neg (hslot f List.mem_cons_self)]

/-- Reading undoes writing: a row with the values of a record gives back every persisted field of
the record and leaves the other fields as they were. Only a content that is present but stored as
`null` is read as absent. Where a slot is registered more than once, its last column decides. -/
theorem readRow_of_values (hm : m.IsSealed) (hnatural : ∀ f ∈ m.fields, f.IsNatural)
    (htype : ∀ f ∈ m.fields, (r.get f.slot).HasType f.type)
    (hbare : ∀ f ∈ m.fields, (r.get f.slot).IsBare f.column.strategy)
    (hvalues : m.values r = .ok vs) (hrow : row.Arranges m.table.names vs) :
    ∃ r', m.readRow initial row = .ok r' ∧
      (∀ (i : Nat) (f : FieldMapping), m.fields[i]? = some f → IsLast m.fields i f.slot →
        (r.get f.slot).ReadsAs f.column.context f.type (r'.get f.slot)) ∧
      ∀ slot, (∀ f ∈ m.fields, f.slot ≠ slot) → r'.get slot = initial.get slot := by
  have hconsistent := hm.consistent
  have hgets : m.fields.map (·.get r) = vs.map Except.ok :=
    Result.map_eq_of_mapM_eq_ok hvalues fun f v hget => hget
  apply exists_readRow
  intro f hf
  obtain ⟨i, hi⟩ := List.mem_iff_getElem?.mp hf
  have hvalue := congrArg (·[i]?) hgets
  simp only [List.getElem?_map, hi, Option.map_some] at hvalue
  obtain ⟨v, hv, hget⟩ := Option.map_eq_some_iff.mp hvalue.symm
  have hname : m.table.names[i]? = some f.column.name := by
    rw [Table.names, hconsistent.columns, List.getElem?_map, List.getElem?_map, hi]
    rfl
  obtain ⟨w, hset, hreads⟩ :=
    FieldMapping.set_of_get (hnatural f hf) (htype f hf) (hbare f hf) hget.symm
  exact ⟨v, w, Row.get?_of_arranges hrow hconsistent.distinct hname hv, hset, hreads⟩

def parcelTier : Enumeration :=
  ⟨"Tier", [⟨"Free", some (.text "F")⟩, ⟨"Pro", some (.text "P")⟩]⟩

def parcelNote : Wrapper where
  name := "Note"
  base := .string
  sqlType := .clob

/-- The fields and what they hold. The key is taken over through two embedded records, the size
through one. -/
def parcelFields : List (FieldDeclaration × FieldValue) :=
  [({ fieldName := "id", slot := ["base", "base", "id"], type := .scalar .int64,
      primaryKey := true }, .scalar (.int64 7)),
   ({ fieldName := "size", slot := ["base", "size"], type := .scalar .uint8 },
      .scalar (.uint8 200)),
   ({ fieldName := "weight", slot := ["weight"], type := .optional (.scalar .uint32) },
      .present (.scalar (.uint32 4000000000))),
   ({ fieldName := "seal", slot := ["seal"], type := .scalar .bytes }, .scalar (.bytes [1, 2])),
   ({ fieldName := "tier", slot := ["tier"], type := .enumeration parcelTier },
      .member parcelTier ⟨1, by decide⟩),
   ({ fieldName := "rank", slot := ["rank"], type := .enumeration parcelTier,
      strategy := .ordinal }, .member parcelTier ⟨1, by decide⟩),
   ({ fieldName := "code", slot := ["code"], type := .optional (.enumeration parcelTier),
      strategy := .customId }, .present (.member parcelTier ⟨0, by decide⟩)),
   ({ fieldName := "note", slot := ["note"], type := .wrapped parcelNote },
      .wrapped parcelNote (.string "dry"))]

def parcelMapping : Mapping where
  table :=
    { name := "parcels", columns := parcelFields.map (·.1.column), primaryKey := ["id"] }
  fields := parcelFields.map (·.1.mapping)

def parcelRecord : Record :=
  ⟨(["draft"], .scalar (.bool true)) :: parcelFields.map fun (d, v) => (d.slot, v)⟩

def parcelValues : List Value :=
  [.int64 7, .int16 200, .int64 4000000000, .blob [1, 2], .text "Pro", .int32 1, .text "F",
   .clob "dry"]

/-- The columns of a result, in another order and another case, and one more. -/
def parcelRow : Row where
  columns := ["NOTE", "Tier", "owner", "id", "SIZE", "weight", "Seal", "rank", "code"]
  values :=
    [.clob "dry", .text "Pro", .text "ann", .int64 7, .int16 200, .int64 4000000000, .blob [1, 2],
     .int32 1, .text "F"]

theorem isSealed_parcelMapping : parcelMapping.IsSealed := ⟨parcelMapping, "parcels", rfl⟩

theorem distinctNames_parcelTier : DistinctNames parcelTier.names := by
  unfold DistinctNames
  decide

theorem hasIds_parcelTier : parcelTier.HasIds where
  ofType := ⟨.text, by decide⟩
  defined := by decide
  distinct := by decide

theorem isNatural_parcelMapping : ∀ f ∈ parcelMapping.fields, f.IsNatural := by
  have hplain : ∀ x ∈ parcelFields, x.1.adapter = none ∧ x.1.sqlType = none ∧
      x.1.trim = false := by
    simp [parcelFields]
  have hdecodable : ∀ x ∈ parcelFields, x.1.type.IsDecodable x.1.strategy := by
    simp only [parcelFields, List.forall_mem_cons]
    exact ⟨trivial, trivial, trivial, trivial, distinctNames_parcelTier, trivial, hasIds_parcelTier,
      .inr ⟨rfl, rfl⟩, List.forall_mem_nil _⟩
  refine List.forall_mem_map.mpr fun x hx => ?_
  obtain ⟨hadapter, hsql, htrim⟩ := hplain x hx
  exact FieldDeclaration.isNatural_mapping hadapter hsql htrim (hdecodable x hx)

theorem get_parcelRecord : ∀ x ∈ parcelFields, parcelRecord.get x.1.slot = x.2 := by decide

theorem hasType_parcelRecord :
    ∀ f ∈ parcelMapping.fields, (parcelRecord.get f.slot).HasType f.type := by
  refine List.forall_mem_map.mpr fun x hx => ?_
  change (parcelRecord.get x.1.slot).HasType x.1.type
  rw [get_parcelRecord x hx]
  revert x
  simp only [parcelFields, List.forall_mem_cons]
  exact ⟨.scalar _, .scalar _, .present _ _ (.scalar _), .scalar _, .member _ _, .member _ _,
    .present _ _ (.member _ _), .wrapped _ _ rfl, List.forall_mem_nil _⟩

theorem isBare_parcelRecord :
    ∀ f ∈ parcelMapping.fields, (parcelRecord.get f.slot).IsBare f.column.strategy := by
  refine List.forall_mem_map.mpr fun x hx => ?_
  change (parcelRecord.get x.1.slot).IsBare x.1.strategy
  rw [get_parcelRecord x hx]
  revert x
  simp only [parcelFields, List.forall_mem_cons]
  refine ⟨trivial, trivial, trivial, trivial, fun _ => ?_, nofun, nofun, trivial,
    List.forall_mem_nil _⟩
  decide

theorem readRow_parcelRow :
    parcelMapping.IsSealed ∧ parcelMapping.values parcelRecord = .ok parcelValues ∧
      parcelRow.Arranges parcelMapping.table.names parcelValues ∧
      ∃ r', parcelMapping.readRow {} parcelRow = .ok r' ∧
        r'.get ["base", "base", "id"] = .scalar (.int64 7) ∧
        r'.get ["code"] = .present (.member parcelTier ⟨0, by decide⟩) ∧
        r'.get ["draft"] = ({} : Record).get ["draft"] := by
  have hvalues : parcelMapping.values parcelRecord = .ok parcelValues := rfl
  have harranges : parcelRow.Arranges parcelMapping.table.names parcelValues := by
    refine ⟨["id", "SIZE", "weight", "Seal", "Tier", "rank", "code", "NOTE"],
      [("owner", .text "ann")], ?_, ?_, ?_⟩
    · decide
    · decide
    · decide
  obtain ⟨r', hread, hfields, hothers⟩ : ∃ r', parcelMapping.readRow {} parcelRow = .ok r' ∧ _ :=
    readRow_of_values isSealed_parcelMapping isNatural_parcelMapping hasType_parcelRecord
      isBare_parcelRecord hvalues harranges
  have hslots : (parcelMapping.fields.map (·.slot)).Nodup := by decide
  refine ⟨isSealed_parcelMapping, hvalues, harranges, r', hread, ?_, ?_, ?_⟩
  · exact (hfields 0 _ rfl (isLast_of_nodup hslots rfl)).1 trivial
  · exact (hfields 6 _ rfl (isLast_of_nodup hslots rfl)).1 nofun
  · exact hothers ["draft"] (by decide)

/-- A table of one column. -/
def slipMapping (name : String) (type : FieldType) : Mapping :=
  let d : FieldDeclaration := { fieldName := name, slot := [name], type }
  ⟨{ name := "slips", columns := [d.column] }, [d.mapping]⟩

def paddedTier : Enumeration := ⟨"Padded", [{ name := " Free" }]⟩

/-- What is present but holds nothing is read as absent, a name is looked for without the blanks
around it, and a further column hides the one behind it if their names differ in case only. -/
theorem readRow_loses :
    let held : FieldValue := .present (.absent (.scalar .int32))
    let note := slipMapping "note" (.optional (.optional (.scalar .int32)))
    let tier := slipMapping "tier" (.enumeration paddedTier)
    let number := slipMapping "id" (.scalar .int64)
    (note.IsSealed ∧ note.values ⟨[(["note"], held)]⟩ = .ok [.null] ∧
      (note.readRow {} ⟨["note"], [.null]⟩).map (·.get ["note"]) =
        .ok (.absent (.optional (.scalar .int32)))) ∧
    (tier.IsSealed ∧
      tier.values ⟨[(["tier"], .member paddedTier ⟨0, by decide⟩)]⟩ = .ok [.text " Free"] ∧
      (tier.readRow {} ⟨["tier"], [.text " Free"]⟩).map (·.get ["tier"]) =
        .error (.unconvertible " Free" .text (.enumeration "Padded"))) ∧
    number.IsSealed ∧ number.values ⟨[(["id"], .scalar (.int64 7))]⟩ = .ok [.int64 7] ∧
      (number.readRow {} ⟨["ID", "id"], [.int64 5, .int64 7]⟩).map (·.get ["id"]) =
        .ok (.scalar (.int64 5)) := by
  intro held note tier number
  exact ⟨⟨⟨note, "slips", rfl⟩, rfl, rfl⟩, ⟨⟨tier, "slips", rfl⟩, rfl, rfl⟩,
    ⟨number, "slips", rfl⟩, rfl, rfl⟩

end Mapping

end RecordMapper
