import RecordMapper.Proofs.Table.Description
import RecordMapper.Proofs.Workspace.Program

/-!
# The mappings of a program

Models are described when they are first needed, and what has been described is kept in the
catalog. Whatever a program has done, all mappings in its catalog are coherent, and so are those of
its aliases; hence describing a model gives a coherent mapping or fails.
-/

set_option autoImplicit false

namespace RecordMapper

namespace Workspace
variable {w : Workspace}

def CatalogCoherent (w : Workspace) : Prop :=
  ∀ id m, (id, Except.ok m) ∈ w.catalog → m.Coherent

theorem mem_of_lookup {α β : Type} [BEq α] [LawfulBEq α] {a : α} {b : β} {entries : List (α × β)}
    (h : entries.lookup a = some b) : (a, b) ∈ entries := by
  induction entries with
  | nil => cases h
  | cons entry rest ih =>
    rw [List.lookup_cons] at h
    split at h
    · next hkey =>
      obtain rfl := Option.some.inj h
      obtain rfl := eq_of_beq hkey
      exact List.mem_cons_self
    · exact List.mem_cons_of_mem _ (ih h)

/-- What is described is coherent, whether it is built now or was built before. -/
theorem coherent_describe (hw : w.CatalogCoherent) (model : Model) :
    (w.describe model).2.CatalogCoherent ∧
      ∀ m, (w.describe model).1 = .ok m → m.Coherent := by
  unfold describe
  split
  · next outcome hfound =>
    refine ⟨hw, ?_⟩
    rintro m rfl
    exact hw model.id m (mem_of_lookup hfound)
  · have hbuilt (m : Mapping) (hm : (model.build w.counter).1 = .ok m) : m.Coherent :=
      Mapping.coherent_of_build hm
    rcases hbuild : model.build w.counter with ⟨outcome, counter⟩
    rw [hbuild] at hbuilt
    have hcatalog : ∀ id m, (id, Except.ok m) ∈ (model.id, outcome) :: w.catalog → m.Coherent := by
      intro id m hm
      rcases List.mem_cons.mp hm with heq | hm
      · obtain ⟨-, rfl⟩ := Prod.mk.inj heq
        exact hbuilt m rfl
      · exact hw id m hm
    cases outcome with
    | error e => exact ⟨hcatalog, nofun⟩
    | ok m =>
      refine ⟨hcatalog, ?_⟩
      rintro _ ⟨⟩
      exact hbuilt m rfl

theorem coherent_newAlias (hw : w.CatalogCoherent) (model : Model) :
    (w.newAlias model).2.CatalogCoherent ∧
      ∀ a, (w.newAlias model).1 = .ok a → a.mapping.Coherent := by
  obtain ⟨hcatalog, hmapping⟩ := coherent_describe hw model
  unfold newAlias
  split
  · next hdescribe =>
    rw [hdescribe] at hcatalog
    exact ⟨hcatalog, nofun⟩
  · next mapping described hdescribe =>
    rw [hdescribe] at hcatalog hmapping
    refine ⟨hcatalog, fun a ha => ?_⟩
    obtain ⟨_, -, rfl⟩ := Result.map_eq_ok_iff.mp ha
    exact hmapping mapping rfl

end Workspace

namespace Program

structure Coherent (p : Program) : Prop where
  catalog : p.workspace.CatalogCoherent
  aliases : ∀ entry ∈ p.aliases, entry.1.mapping.Coherent

theorem Coherent.create {p : Program} (h : p.Coherent) (model : Model) :
    (p.create model).Coherent := by
  obtain ⟨hcatalog, hmapping⟩ := Workspace.coherent_newAlias h.catalog model
  unfold Program.create
  split
  · next a workspace hnew =>
    rw [hnew] at hcatalog hmapping
    refine ⟨hcatalog, fun entry hentry => ?_⟩
    rcases List.mem_append.mp hentry with hentry | hentry
    · exact h.aliases entry hentry
    · obtain rfl := List.mem_singleton.mp hentry
      exact hmapping a rfl
  · next hnew =>
    rw [hnew] at hcatalog
    exact ⟨hcatalog, h.aliases⟩

theorem Coherent.refill {p : Program} (h : p.Coherent) (i : Nat) : (p.refill i).Coherent := by
  unfold Program.refill
  split
  · next a complete ha =>
    refine ⟨h.catalog, fun entry hentry => ?_⟩
    rcases List.mem_or_eq_of_mem_set hentry with hentry | rfl
    · exact h.aliases entry hentry
    · exact h.aliases (a, complete) (List.mem_of_getElem? ha)
  · exact h

theorem Coherent.step {p : Program} (h : p.Coherent) (act : Act) : (p.step act).Coherent := by
  cases act with
  | describe model => exact ⟨(Workspace.coherent_describe h.catalog model).1, h.aliases⟩
  | create model => exact h.create model
  | refill i => exact h.refill i
  | reserve | fresh | resetCounter => exact ⟨h.catalog, h.aliases⟩
  | resetCatalog => exact ⟨fun _ _ hm => absurd hm List.not_mem_nil, h.aliases⟩

theorem coherent_run (acts : List Act) : (run acts).Coherent := by
  have extend (p : Program) (h : p.Coherent) : (acts.foldl Program.step p).Coherent := by
    induction acts generalizing p with
    | nil => exact h
    | cons act rest ih => exact ih (p.step act) (h.step act)
  exact extend {} ⟨fun _ _ hm => absurd hm List.not_mem_nil, nofun⟩

/-- However a program has come about, a model that can be described has a coherent mapping. -/
theorem coherent_of_describe {acts : List Act} {model : Model} {m : Mapping} {w : Workspace}
    (h : (run acts).workspace.describe model = (.ok m, w)) : m.Coherent := by
  refine (Workspace.coherent_describe (coherent_run acts).catalog model).2 m ?_
  rw [h]

/-- A record that embeds another, with a listed key, an index without a name, and refinements that
contradict the description. -/
def ledgerModel : Model where
  id := 0
  typeName := "Entry"
  initial := {}
  description :=
    .setting .inheritColumns <|
    .inherit "base"
      (.setting (.field { fieldName := "id", slot := ["id"], type := .scalar .int64 }) <|
       .setting (.field { fieldName := "closed", slot := ["closed"], type := .scalar .bool }) .done) <|
    .setting (.field { fieldName := "code", slot := ["code"], type := .scalar .string }) <|
    .setting (.primaryKey ["CODE", "ID"]) <|
    .setting (.index { name := "", kind := .unique, columns := ["Closed"] }) .done
  refinements :=
    [.autoIncrement (.own ["base", "id"]), .nullable (.own ["base", "id"]) true,
     .columnName (.own ["base", "closed"]) "is_closed"]

def ledgerTable : Table where
  name := "Entry"
  columns :=
    [{ name := "id", fieldName := "id", sqlType := .bigInt, primaryKey := true,
       autoIncrement := true, isByValue := true },
     { name := "is_closed", fieldName := "closed", sqlType := .boolean, isByValue := true },
     { name := "code", fieldName := "code", sqlType := .varchar, primaryKey := true }]
  primaryKey := ["code", "id"]
  indexes := [{ name := "Entry_0", kind := .unique, columns := ["is_closed"] }]

theorem coherent_ledger : ∃ m w, (run []).workspace.describe ledgerModel = (.ok m, w) ∧
    m.table = ledgerTable ∧ m.Coherent := by
  have htable : (((run []).workspace.describe ledgerModel).1.map (·.table)).toOption =
      some ledgerTable := by decide +kernel
  obtain ⟨m, hm, hledger⟩ :=
    Result.map_eq_ok_iff.mp (Result.eq_ok_of_toOption_eq_some htable)
  have hdescribe : (run []).workspace.describe ledgerModel =
      (.ok m, ((run []).workspace.describe ledgerModel).2) := Prod.ext hm rfl
  exact ⟨m, _, hdescribe, hledger, coherent_of_describe hdescribe⟩

end Program

end RecordMapper
