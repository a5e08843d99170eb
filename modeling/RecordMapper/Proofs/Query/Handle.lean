import RecordMapper.Proofs.Query.Role
import RecordMapper.Proofs.Query.Scope
import RecordMapper.Proofs.Registry.Distinct

/-!
# Handles of columns

A handle that an alias gives is bound to the number of the alias and carries the name of a column.
Neither ever changes, and names of columns are told apart in a mapping. So a handle denotes, at any
later time and in any query, the column it was given for, in the first table of its alias; where
the alias is missing it is refused.
-/

set_option autoImplicit false

namespace RecordMapper

namespace Query

/-- All tables of the query are aliases of the program. -/
def IsWithin (q : Query) (p : Program) : Prop :=
  ∀ a ∈ q.sources, ∃ complete, (a, complete) ∈ p.aliases

/-- The position of the first table of the alias with this number. -/
def place? (q : Query) (id : Nat) : Option Nat := q.sources.findIdx? fun a => a.id = id

theorem firstCurrent?_map_ite (i : Nat) (id table : Nat) (sources : List Alias) :
    firstCurrent? table (sources.map fun a => if a.id = id then .current i else .miss) =
      (sources.findIdx? fun a => a.id = id).map fun k => ⟨table + k, i⟩ := by
  induction sources generalizing table with
  | nil => rfl
  | cons a rest ih =>
    rw [List.map_cons, List.findIdx?_cons]
    by_cases hid : a.id = id
    · simp [hid, firstCurrent?]
    · simp only [hid, if_false, decide_false, Bool.false_eq_true, firstCurrent?]
      rw [ih, Option.map_map]
      apply Option.map_congr
      intro k _
      simp only [Function.comp_apply]
      rw [Nat.add_assoc, Nat.add_comm 1 k]

end Query

section Handle
variable {acts later : List Act} {a b : Alias} {complete : Bool} {i : Nat} {f : FieldMapping}

theorem Alias.lookup_handle (ha : (a, complete) ∈ (Program.run acts).aliases)
    (hf : a.mapping.fields[i]? = some f) {complete' : Bool}
    (hb : (b, complete') ∈ (Program.run (acts ++ later)).aliases) (key : Option Key) :
    b.lookup key (some (a.table.handle (some a.id) f.column)) =
      if b.id = a.id then .current i else .miss := by
  by_cases hid : b.id = a.id
  · have hmapping := Program.mapping_eq_of_id_eq ha hb hid
    have hcoherent : a.mapping.Coherent := (Program.coherent_run acts).aliases _ ha
    have hcolumn : b.table.columns[i]? = some f.column := by
      rw [Alias.table, hmapping, hcoherent.columns, List.getElem?_map, hf, Option.map_some]
    have hdistinct : DistinctNames b.table.names := by
      rw [Alias.table, hmapping]
      exact hcoherent.distinct
    have hindex : b.table.columnIndex? f.column.name = some i :=
      Table.columnIndex?_name hdistinct hcolumn
    simp only [Alias.lookup, Alias.handled?, Table.handle, hid, hindex, decide_true, if_true]
  · have hother : a.id ≠ b.id := fun h => hid h.symm
    simp only [Alias.lookup, Alias.handled?, Table.handle, hid, hother, decide_false, if_false,
      Bool.false_eq_true]

namespace Query
variable {q : Query}

theorem lookups_handle (ha : (a, complete) ∈ (Program.run acts).aliases)
    (hf : a.mapping.fields[i]? = some f) (hq : q.IsWithin (Program.run (acts ++ later))) :
    q.lookups (.column (a.table.handle (some a.id) f.column)) =
      q.sources.map fun b => if b.id = a.id then .current i else .miss := by
  apply List.map_congr_left
  intro b hb
  obtain ⟨complete', hb⟩ := hq b hb
  exact Alias.lookup_handle ha hf hb _

theorem resolve_handle (ha : (a, complete) ∈ (Program.run acts).aliases)
    (hf : a.mapping.fields[i]? = some f) (hq : q.IsWithin (Program.run (acts ++ later))) :
    q.resolve (.column (a.table.handle (some a.id) f.column)) =
      match q.place? a.id with
      | some k => .ok (some ⟨k, i⟩)
      | none => .error (.unmappedField (.notInQuery a.table.name f.column.name)) := by
  have hlookups := lookups_handle ha hf hq
  have hfirst := firstCurrent?_map_ite i a.id 0 q.sources
  rw [← hlookups] at hfirst
  unfold place?
  cases hplace : q.sources.findIdx? fun b => b.id = a.id with
  | some k =>
    rw [hplace] at hfirst
    apply resolve_of_firstCurrent?
    rw [hfirst, Option.map_some, Nat.zero_add]
  | none =>
    rw [hplace] at hfirst
    have hretired : (q.lookups (.column (a.table.handle (some a.id) f.column))).contains
        .retired = false := by
      rw [hlookups, List.contains_eq_mem, decide_eq_false_iff_not]
      intro hmem
      obtain ⟨b, -, hb⟩ := List.mem_map.mp hmem
      split at hb
      · cases hb
      · cases hb
    simp only [resolve, hfirst, Option.map_none, hretired, Bool.false_eq_true, if_false,
      Argument.columnRef?]
    rfl

theorem columnAt?_of_place? (ha : (a, complete) ∈ (Program.run acts).aliases)
    (hf : a.mapping.fields[i]? = some f) (hq : q.IsWithin (Program.run (acts ++ later)))
    {k : Nat} (hk : q.place? a.id = some k) : q.columnAt? ⟨k, i⟩ = some f.column := by
  obtain ⟨hlt, hid, -⟩ := List.findIdx?_eq_some_iff_getElem.mp hk
  have hsource : q.sources[k]? = some q.sources[k] := List.getElem?_eq_getElem hlt
  obtain ⟨complete', hb⟩ := hq _ (List.getElem_mem hlt)
  have hmapping := Program.mapping_eq_of_id_eq ha hb (of_decide_eq_true hid)
  have hcoherent : a.mapping.Coherent := (Program.coherent_run acts).aliases _ ha
  have htable : q.tables[k]? = some a.mapping.table := by
    rw [tables, List.getElem?_map, hsource, Option.map_some, Alias.table, hmapping]
  change (q.tables[k]?).bind (·.columns[i]?) = some f.column
  rw [htable, Option.bind_some, hcoherent.columns, List.getElem?_map, hf, Option.map_some]

end Query

/-- The handle that an alias gives for an argument is that of the column which the argument denotes.
Whatever becomes of the alias later, at every place that is resolved, and among the columns that are
asked for, the handle stands for this column of the first table of the alias, and for no other. In
a query without the alias it is refused. -/
theorem Alias.handle_exact (ha : (a, complete) ∈ (Program.run acts).aliases) {arg : Argument}
    (harg : a.resolve arg = .ok (some i)) :
    ∃ f h, a.mapping.fields[i]? = some f ∧ a.column arg = .ok h ∧
      ∀ (later : List Act) (q : Query),
        (∀ r : Role, r.Resolves → (r.scope q).IsWithin (Program.run (acts ++ later)) →
          (∀ k, (r.scope q).place? a.id = some k →
            (r.scope q).columnAt? ⟨k, i⟩ = some f.column ∧ r.Takes q (.column h) ⟨k, i⟩) ∧
          ((r.scope q).place? a.id = none →
            r.Refuses q (.column h) (.notInQuery h.table h.column))) ∧
        (q.IsWithin (Program.run (acts ++ later)) →
          (∀ k, q.place? a.id = some k →
            q.columnAt? ⟨k, i⟩ = some f.column ∧ q.column (.column h) = .ok ⟨k, i⟩) ∧
          (q.place? a.id = none →
            ∀ columns, .column h ∈ columns → q.Refuses (.rows columns))) := by
  have hmade : a.IsMade := ⟨acts, complete, ha⟩
  have hlookup : a.lookup arg.key? arg.columnRef? = .current i := by
    unfold resolve at harg
    split at harg
    · next position hposition =>
      obtain rfl := Option.some.inj (Except.ok.inj harg)
      exact hposition
    · cases harg
    · cases harg
  have hcoherent : a.mapping.Coherent := (Program.coherent_run acts).aliases _ ha
  obtain ⟨f, hf⟩ : ∃ f, a.mapping.fields[i]? = some f := by
    have hlt := hmade.lt_of_lookup hlookup
    rw [table, hcoherent.columns, List.length_map] at hlt
    exact ⟨_, List.getElem?_eq_getElem hlt⟩
  refine ⟨f, a.table.handle (some a.id) f.column, hf, column_of_resolve harg hf, ?_⟩
  intro later q
  constructor
  · intro r hr hq
    have hresolve := Query.resolve_handle ha hf hq
    constructor
    · intro k hk
      rw [hk] at hresolve
      exact ⟨Query.columnAt?_of_place? ha hf hq hk, Role.takes_of_resolve hr hresolve⟩
    · intro hnone
      rw [hnone] at hresolve
      exact Role.refuses_of_resolve hr hresolve
  · intro hq
    have hresolve := Query.resolve_handle ha hf hq
    constructor
    · intro k hk
      rw [hk] at hresolve
      exact ⟨Query.columnAt?_of_place? ha hf hq hk, Query.column_of_resolve hresolve⟩
    · intro hnone columns hmem
      rw [hnone] at hresolve
      exact Query.refuses_rows (Query.column_of_error hresolve) hmem

end Handle

def relayField (name column : String) : FieldMapping where
  column := { name := column, fieldName := name, sqlType := .bigInt, isByValue := true }
  slot := [name]
  type := .scalar .int64

/-- A column of this model is named like another field. -/
def relayModel : Model where
  id := 0
  typeName := "Relay"
  initial := {}
  description :=
    .setting (.field
      { fieldName := "lead", slot := ["lead"], type := .scalar .int64, columnName := some "rear" }) <|
    .setting (.field
      { fieldName := "rear", slot := ["rear"], type := .scalar .int64, columnName := some "tail" })
      .done

def relayMapping : Mapping where
  table :=
    { name := "Relay"
      columns := [(relayField "lead" "rear").column, (relayField "rear" "tail").column] }
  fields := [relayField "lead" "rear", relayField "rear" "tail"]

/-- The alias as it is after `generation` fillings, the last of which began at `seq`. -/
def relayAlias (id : Nat) (lead rear : Int64) (registry : Registry) : Alias where
  id
  model := relayModel
  mapping := relayMapping
  record := ⟨[(["lead"], .scalar (.int64 lead)), (["rear"], .scalar (.int64 rear))]⟩
  registry

def relayActs : List Act := [.create relayModel, .create relayModel]

/-- Both aliases are filled anew between the time a handle is given and the time it is used. -/
def relayLater : List Act := [.refill 1, .reserve 3, .refill 0]

def relayFirst : Alias := relayAlias 1 12 13 ⟨[(.int 12, 0), (.int 13, 1)], [.int 3, .int 4], 2⟩

def relaySecond : Alias := relayAlias 2 5 6 ⟨[(.int 5, 0), (.int 6, 1)], [], 1⟩

def relaySecondAnew : Alias := relayAlias 2 7 8 ⟨[(.int 7, 0), (.int 8, 1)], [.int 5, .int 6], 2⟩

theorem aliases_relayActs :
    (Program.run relayActs).aliases[1]? = some (relaySecond, true) ∧
      (Program.run (relayActs ++ relayLater)).aliases =
        [(relayFirst, true), (relaySecondAnew, true)] :=
  ⟨rfl, rfl⟩

/-- Both relays, the second of which follows the first. -/
def relayQuery : Query :=
  .run relayFirst
    [.join .left relaySecondAnew (relaySecondAnew.reference ["rear"])
      (.compare .eq (relayFirst.reference ["lead"]))]

/-- The handle of the field `lead` is that of the column named `rear`. It is used when both aliases
have been filled anew, and denotes this column and not that of the field `rear`, in the second of
two tables of the same name; a query over the first alone refuses it. -/
theorem handle_exact_relay :
    (relaySecond, true) ∈ (Program.run relayActs).aliases ∧
      relaySecond.resolve (relaySecond.reference ["lead"]) = .ok (some 0) ∧
      ∃ h, relaySecond.column (relaySecond.reference ["lead"]) = .ok h ∧ h.column = "rear" ∧
        (Role.ordered true).held? (relayQuery.orderBy (.column h) true) =
          some (.column ⟨1, 0⟩) ∧
        (relayQuery.columnAt? ⟨1, 0⟩).map (·.fieldName) = some "lead" ∧
        (Role.ordered true).Refuses { source := relayFirst } (.column h)
          (.notInQuery "Relay" "rear") := by
  have hmade : (relaySecond, true) ∈ (Program.run relayActs).aliases :=
    List.mem_of_getElem? aliases_relayActs.1
  have hresolve : relaySecond.resolve (relaySecond.reference ["lead"]) = .ok (some 0) := rfl
  obtain ⟨f, h, hf, hcolumn, hdenotes⟩ := Alias.handle_exact hmade hresolve
  obtain rfl : relayField "lead" "rear" = f := Option.some.inj hf
  obtain rfl := Except.ok.inj hcolumn
  have hjoined : relayQuery.IsWithin (Program.run (relayActs ++ relayLater)) := by
    intro a ha
    rw [aliases_relayActs.2]
    rcases List.mem_cons.mp ha with rfl | ha
    · exact ⟨true, List.mem_cons_self⟩
    · obtain rfl := List.mem_singleton.mp ha
      exact ⟨true, List.mem_cons_of_mem _ List.mem_cons_self⟩
  have halone : Query.IsWithin { source := relayFirst } (Program.run (relayActs ++ relayLater)) := by
    intro a ha
    obtain rfl := List.mem_singleton.mp ha
    rw [aliases_relayActs.2]
    exact ⟨true, List.mem_cons_self⟩
  obtain ⟨hcolumnAt, htakes⟩ :=
    ((hdenotes relayLater relayQuery).1 (.ordered true) trivial hjoined).1 1 rfl
  refine ⟨hmade, hresolve, _, hcolumn, rfl, htakes.held rfl, ?_, ?_⟩
  · have hlead : relayQuery.columnAt? ⟨1, 0⟩ = some (relayField "lead" "rear").column := hcolumnAt
    rw [hlead]
    rfl
  · exact ((hdenotes relayLater { source := relayFirst }).1 (.ordered true) trivial halone).2 rfl

end RecordMapper
