import Mathlib.Data.List.Pairwise
import RecordMapper.Proofs.Database.Forgetting

/-!
# Descriptions in the course of a program

Models are described by name, when an alias is created, and by the operations of a database on
records and tables. Whatever happens in between, a model is built the first time it is described
and never again: later descriptions give the same answer, be it an error, and draw no sentinel.

A model whose description fails draws from the counter like any other, and that is all that others
see of it. Had its values merely been reserved, everything that is done with other models would
end in the same state. The values matter, though: a refinement that names its column by a number
instead of a field finds another column, or none, where the counter stands elsewhere.
-/

set_option autoImplicit false

namespace RecordMapper

/-- What has come of the description of a model, whether the model was built for it, and where the
counter stood before and after. -/
structure Answer where
  model : Model
  outcome : Result Mapping
  isBuilt : Bool
  before : UInt32
  after : UInt32

def Workspace.answer (w : Workspace) (model : Model) : Answer where
  model
  outcome := (w.describe model).1
  isBuilt := (w.catalog.lookup model.id).isNone
  before := w.counter
  after := (w.describe model).2.counter

/-- The descriptions in the course of some turns. -/
def Site.answers : Site → List Turn → List Answer
  | _, [] => []
  | s, c :: rest => ((s.needs c).map s.workspace.answer).toList ++ (s.turn c).answers rest

namespace Workspace
variable {w : Workspace} {model : Model} {id : Nat} {outcome : Result Mapping}

theorem answer_of_lookup (h : w.catalog.lookup model.id = some outcome) :
    w.answer model = ⟨model, outcome, false, w.counter, w.counter⟩ := by
  rw [answer, describe_of_lookup h, h]
  rfl

theorem answer_of_miss (h : w.catalog.lookup model.id = none) :
    w.answer model =
      ⟨model, (model.build w.counter).1, true, w.counter, (model.build w.counter).2⟩ := by
  rw [answer, describe_of_miss h, counter_enter, h]
  rfl

theorem answer_forget (h : model.id ≠ id) (w : Workspace) :
    (w.forget id).answer model = w.answer model := by
  rw [answer, describe_forget h]
  change Answer.mk _ _ ((Catalog.without id w.catalog).lookup model.id).isNone _ _ = _
  rw [Catalog.lookup_without h]
  rfl

/-- An entry is never changed. -/
theorem lookup_describe_of_lookup (h : w.catalog.lookup id = some outcome) (model : Model) :
    (w.describe model).2.catalog.lookup id = some outcome := by
  cases hfound : w.catalog.lookup model.id with
  | some found => rwa [describe_of_lookup hfound]
  | none =>
    have hid : (id == model.id) = false := by
      refine beq_false_of_ne ?_
      rintro rfl
      rw [h] at hfound
      cases hfound
    rw [describe_of_miss hfound, catalog_enter, List.lookup_cons, hid]
    exact h

theorem lookup_describe_of_ne (h : id ≠ model.id) (w : Workspace) :
    (w.describe model).2.catalog.lookup id = w.catalog.lookup id := by
  cases hfound : w.catalog.lookup model.id with
  | some found => rw [describe_of_lookup hfound]
  | none =>
    rw [describe_of_miss hfound, catalog_enter, List.lookup_cons, beq_false_of_ne h]

end Workspace

namespace Site
variable {s : Site} {t : Turn} {ts : List Turn} {model : Model} {id : Nat}
  {outcome : Result Mapping}

theorem lookup_turn_of_lookup (h : s.workspace.catalog.lookup id = some outcome) (t : Turn) :
    (s.turn t).workspace.catalog.lookup id = some outcome := by
  rw [catalog_turn]
  split
  · exact Workspace.lookup_describe_of_lookup h _
  · exact h

theorem lookup_turn_of_needs (h : s.needs t = some model) :
    (s.turn t).workspace.catalog.lookup model.id = some (s.workspace.describe model).1 := by
  rw [catalog_turn, h]
  exact Workspace.lookup_describe s.workspace model

theorem lookup_turn_of_not_needs (h : ∀ model, s.needs t = some model → id ≠ model.id) :
    (s.turn t).workspace.catalog.lookup id = s.workspace.catalog.lookup id := by
  rw [catalog_turn]
  split
  · next model hneeds => exact Workspace.lookup_describe_of_ne (h model hneeds) _
  · rfl

@[simp] theorem turns_append (s : Site) (ts more : List Turn) :
    s.turns (ts ++ more) = (s.turns ts).turns more :=
  List.foldl_append

@[simp] theorem answers_append (s : Site) (ts more : List Turn) :
    s.answers (ts ++ more) = s.answers ts ++ (s.turns ts).answers more := by
  induction ts generalizing s with
  | nil => rfl
  | cons t rest ih => rw [List.cons_append, answers, ih, answers, List.append_assoc]; rfl

theorem mem_answers_cons {a : Answer} (h : a ∈ s.answers (t :: ts)) :
    (∃ model, s.needs t = some model ∧ a = s.workspace.answer model) ∨
      a ∈ (s.turn t).answers ts := by
  rcases List.mem_append.mp h with hnow | hlater
  · obtain ⟨model, hneeds, rfl⟩ := Option.map_eq_some_iff.mp (Option.mem_toList.mp hnow)
    exact .inl ⟨model, hneeds, rfl⟩
  · exact .inr hlater

/-- What is in the catalog is replayed. -/
theorem replayed_of_lookup (h : s.workspace.catalog.lookup id = some outcome) {a : Answer}
    (ha : a ∈ s.answers ts) (hid : a.model.id = id) : a.outcome = outcome ∧ a.isBuilt = false := by
  induction ts generalizing s with
  | nil => cases ha
  | cons t rest ih =>
    rcases mem_answers_cons ha with ⟨model, -, rfl⟩ | hlater
    · change model.id = id at hid
      subst hid
      rw [Workspace.answer_of_lookup h]
      exact ⟨rfl, rfl⟩
    · exact ih (lookup_turn_of_lookup h t) hlater

/-- Whatever is not described is not in the catalog either. -/
theorem lookup_turns_eq_none (h : s.workspace.catalog.lookup id = none)
    (hts : ∀ a ∈ s.answers ts, a.model.id ≠ id) :
    (s.turns ts).workspace.catalog.lookup id = none := by
  induction ts generalizing s with
  | nil => exact h
  | cons t rest ih =>
    rw [answers] at hts
    refine ih ?_ fun a ha => hts a (List.mem_append_right _ ha)
    rw [lookup_turn_of_not_needs]
    · exact h
    · intro model hneeds
      rw [hneeds] at hts
      exact (hts _ (List.mem_append_left _ List.mem_cons_self)).symm

/-- Once described, a model is in the catalog. -/
theorem exists_lookup_turns {a : Answer} (ha : a ∈ s.answers ts) :
    ∃ outcome, (s.turns ts).workspace.catalog.lookup a.model.id = some outcome := by
  have kept (s : Site) {outcome : Result Mapping} {id : Nat}
      (h : s.workspace.catalog.lookup id = some outcome) (ts : List Turn) :
      (s.turns ts).workspace.catalog.lookup id = some outcome := by
    induction ts generalizing s with
    | nil => exact h
    | cons t rest ih => exact ih _ (lookup_turn_of_lookup h t)
  induction ts generalizing s with
  | nil => cases ha
  | cons t rest ih =>
    rcases mem_answers_cons ha with ⟨model, hneeds, rfl⟩ | hlater
    · exact ⟨_, kept _ (lookup_turn_of_needs hneeds) rest⟩
    · exact ih hlater

theorem pairwise_answers (s : Site) (ts : List Turn) :
    (s.answers ts).Pairwise fun a b =>
      b.model.id = a.model.id → b.outcome = a.outcome ∧ b.isBuilt = false := by
  induction ts generalizing s with
  | nil => exact .nil
  | cons t rest ih =>
    rw [answers]
    cases hneeds : s.needs t with
    | none => exact ih (s.turn t)
    | some model =>
      refine .cons ?_ (ih (s.turn t))
      intro b hb hid
      exact replayed_of_lookup (lookup_turn_of_needs hneeds) hb hid

/-- Each answer is given in the state to which the turns before it have led. -/
theorem exists_turn_of_answers_eq {earlier later : List Answer} {a : Answer}
    (h : s.answers ts = earlier ++ a :: later) :
    ∃ before t after, ts = before ++ t :: after ∧ s.answers before = earlier ∧
      (s.turns before).needs t = some a.model ∧ a = (s.turns before).workspace.answer a.model := by
  induction ts generalizing s earlier with
  | nil => exact absurd h (by simp [answers])
  | cons t rest ih =>
    rw [answers] at h
    cases hneeds : s.needs t with
    | none =>
      rw [hneeds] at h
      obtain ⟨before, t', after, rfl, hearlier, ha⟩ := ih h
      refine ⟨t :: before, t', after, rfl, ?_, ha⟩
      rw [answers, hneeds]
      exact hearlier
    | some model =>
      rw [hneeds] at h
      cases earlier with
      | nil =>
        obtain ⟨rfl, -⟩ := List.cons.inj h
        exact ⟨[], t, rest, rfl, rfl, hneeds, rfl⟩
      | cons first earlier =>
        obtain ⟨hfirst, hrest⟩ := List.cons.inj h
        obtain ⟨before, t', after, rfl, hearlier, ha⟩ := ih hrest
        refine ⟨t :: before, t', after, rfl, ?_, ha⟩
        rw [answers, hneeds, hearlier, ← hfirst]
        rfl

/-- A model that has failed keeps failing, and nothing comes of it. -/
theorem turn_of_names {e : Error} (h : s.workspace.catalog.lookup id = some (.error e))
    (ht : t.names id = true) : s.turn t = s := by
  cases hneeds : s.needs t with
  | some model =>
    rw [id_of_needs hneeds, beq_iff_eq] at ht
    subst ht
    have hdescribe := Workspace.describe_of_lookup h
    rw [turn_of_error hneeds (congrArg Prod.fst hdescribe), turn, hdescribe]
  | none =>
    cases t with
    | describe => cases hneeds
    | reserve => cases ht
    | command c =>
      cases c with
      | use i usage =>
        rw [needs] at hneeds
        split at hneeds
        · rw [Turn.names, hneeds] at ht
          cases ht
        · next hi => exact use_of_not_lt hi usage
      | newAlias => cases hneeds
      | connect | refill | subscribe | unsubscribe | resetCounts => cases ht

theorem filter_answer_of_names (ht : t.names id = true) :
    ((s.needs t).map s.workspace.answer).toList.filter (fun a => a.model.id ≠ id) = [] := by
  cases hneeds : s.needs t with
  | none => rfl
  | some model =>
    rw [id_of_needs hneeds, beq_iff_eq] at ht
    rw [Option.map_some, Option.toList_some,
      List.filter_cons_of_neg (by simp [Workspace.answer, ht])]
    rfl

theorem filter_answer_of_not_names (ht : t.names id = false) :
    ((s.needs t).map s.workspace.answer).toList.filter (fun a => a.model.id ≠ id) =
      ((s.needs t).map (s.forget id).workspace.answer).toList := by
  cases hneeds : s.needs t with
  | none => rfl
  | some model =>
    rw [id_of_needs hneeds] at ht
    have hid : model.id ≠ id := by simpa using ht
    have hanswer : (s.forget id).workspace.answer model = s.workspace.answer model :=
      Workspace.answer_forget hid s.workspace
    rw [Option.map_some, Option.map_some, hanswer, Option.toList_some,
      List.filter_cons_of_pos (by simp [Workspace.answer, hid])]
    rfl

/-- The turns that are not about the model, seen without it. -/
theorem turns_forget {e : Error} (h : s.workspace.catalog.lookup id = some (.error e))
    (ts : List Turn) :
    (s.turns ts).forget id = (s.forget id).turns (ts.filter fun t => !t.names id) ∧
      (s.answers ts).filter (fun a => a.model.id ≠ id) =
        (s.forget id).answers (ts.filter fun t => !t.names id) := by
  induction ts generalizing s with
  | nil => exact ⟨rfl, rfl⟩
  | cons t rest ih =>
    cases ht : t.names id with
    | true =>
      have hsame := turn_of_names h ht
      rw [List.filter_cons_of_neg (by simp [ht]), answers, List.filter_append,
        filter_answer_of_names ht, List.nil_append, hsame]
      refine ⟨?_, (ih h).2⟩
      change ((s.turn t).turns rest).forget id = _
      rw [hsame]
      exact (ih h).1
    | false =>
      have hnext := ih (lookup_turn_of_lookup h t)
      rw [List.filter_cons_of_pos (by simp [ht]), answers, answers, List.filter_append,
        needs_forget, turn_forget ht, filter_answer_of_not_names ht, hnext.2]
      refine ⟨?_, rfl⟩
      change ((s.turn t).turns rest).forget id = ((s.forget id).turn t).turns _
      rw [turn_forget ht]
      exact hnext.1

/-- The first turn about a model that fails only moves the counter. -/
theorem turn_forget_of_error {e : Error} (hneeds : s.needs t = some model)
    (hfound : s.workspace.catalog.lookup model.id = none)
    (herror : (s.workspace.describe model).1 = .error e) :
    ∃ n, (s.turn t).forget model.id = s.turn (.reserve n) := by
  refine ⟨Sentinel.distance s.workspace.counter (s.workspace.describe model).2.counter, ?_⟩
  rw [turn_of_error hneeds herror]
  exact congrArg (fun w => { s with workspace := w })
    (Workspace.forget_describe_of_error hfound herror)

/-- A model is built for the first of its descriptions. -/
theorem isBuilt_iff_of_answers_eq {earlier later : List Answer} {a : Answer}
    (h : answers {} ts = earlier ++ a :: later) :
    a.isBuilt = true ↔ ∀ b ∈ earlier, b.model.id ≠ a.model.id := by
  constructor
  · intro hbuilt b hb hid
    have hpairwise := pairwise_answers {} ts
    rw [h] at hpairwise
    have hlater := (List.pairwise_append.mp hpairwise).2.2 b hb a List.mem_cons_self hid.symm
    rw [hlater.2] at hbuilt
    cases hbuilt
  · intro hnew
    obtain ⟨before, t, after, -, rfl, -, ha⟩ := exists_turn_of_answers_eq h
    have hmiss := @lookup_turns_eq_none {} before a.model.id rfl hnew
    rw [ha, Workspace.answer_of_miss hmiss]

theorem nodup_built (s : Site) (ts : List Turn) :
    (((s.answers ts).filter (·.isBuilt)).map (·.model.id)).Nodup := by
  refine List.pairwise_map.mpr (((pairwise_answers s ts).filter _).imp_of_mem ?_)
  intro a b _ hb hreplayed hid
  have hbuilt := List.of_mem_filter hb
  rw [(hreplayed hid.symm).2] at hbuilt
  cases hbuilt

theorem outcome_eq_of_mem_answers (s : Site) (ts : List Turn) :
    ∀ a ∈ s.answers ts, ∀ b ∈ s.answers ts, a.model.id = b.model.id → a.outcome = b.outcome := by
  have hsame : (s.answers ts).Pairwise fun a b => a.model.id = b.model.id → a.outcome = b.outcome :=
    (pairwise_answers s ts).imp fun hreplayed hid => (hreplayed hid.symm).1.symm
  have hsymm : Std.Symm fun a b : Answer => a.model.id = b.model.id → a.outcome = b.outcome :=
    ⟨fun _ _ h hid => (h hid.symm).symm⟩
  intro a ha b hb
  exact hsame.forall_of_forall (fun _ _ _ => rfl) ha hb

/-- An answer is built where the counter stands, or leaves the counter alone. -/
theorem after_of_mem_answers {a : Answer} (ha : a ∈ s.answers ts) :
    if a.isBuilt then (a.outcome, a.after) = a.model.build a.before else a.after = a.before := by
  obtain ⟨earlier, later, h⟩ := List.append_of_mem ha
  obtain ⟨before, t, after, -, -, -, ha⟩ := exists_turn_of_answers_eq h
  cases hfound : (s.turns before).workspace.catalog.lookup a.model.id with
  | some outcome =>
    rw [Workspace.answer_of_lookup hfound] at ha
    rw [ha]
    rfl
  | none =>
    rw [Workspace.answer_of_miss hfound] at ha
    rw [ha]
    rfl

/-- What is not in the catalog has not been described before. -/
theorem filter_answers_of_lookup_none (h : (s.turns ts).workspace.catalog.lookup id = none) :
    (s.answers ts).filter (fun a => a.model.id ≠ id) = s.answers ts := by
  refine List.filter_eq_self.mpr fun a ha => decide_eq_true fun hid => ?_
  obtain ⟨outcome, hfound⟩ := exists_lookup_turns ha
  rw [hid, h] at hfound
  cases hfound

/-- From the first description of a model that fails, its turns amount to drawing some values. -/
theorem exists_turns_forget {before after : List Turn} {e : Error}
    (hneeds : (s.turns before).needs t = some model)
    (hmiss : (s.turns before).workspace.catalog.lookup model.id = none)
    (herror : ((s.turns before).workspace.describe model).1 = .error e) :
    ∃ n, let others := before ++ .reserve n :: after.filter fun t => !t.names model.id
      (s.turns (before ++ t :: after)).forget model.id = s.turns others ∧
        (s.answers (before ++ t :: after)).filter (fun a => a.model.id ≠ model.id) =
          s.answers others := by
  obtain ⟨n, hforget⟩ := turn_forget_of_error hneeds hmiss herror
  have hfailed : ((s.turns before).turn t).workspace.catalog.lookup model.id =
      some (.error e) := by
    rw [lookup_turn_of_needs hneeds]
    exact congrArg some herror
  obtain ⟨hstate, hanswers⟩ := turns_forget hfailed after
  rw [hforget] at hstate hanswers
  refine ⟨n, ?_, ?_⟩
  · rw [turns_append, turns_append]
    exact hstate
  · have hnow : ((s.turns before).workspace.answer model).model.id = model.id := rfl
    rw [answers_append, answers_append, List.filter_append, filter_answers_of_lookup_none hmiss,
      answers, answers, hneeds, Option.map_some, Option.toList_some, List.filter_append,
      List.filter_cons_of_neg (by simp [hnow]), List.filter_nil]
    rw [hanswers]
    rfl

/-- Each model is built at most once, for the first of its descriptions, with the outcome that
building has where the counter stands. All its descriptions have this outcome, be it a mapping or
an error, and those after the first leave the counter alone. Whatever a program does, the turns
about a model that fails amount to drawing some values: without them, and with these values merely
reserved, the other models are described alike and all ends in the same state. -/
theorem descriptions_fixed (ts : List Turn) :
    let run := answers {} ts
    ((run.filter (·.isBuilt)).map (·.model.id)).Nodup ∧
    (∀ earlier a later, run = earlier ++ a :: later →
      (a.isBuilt = true ↔ ∀ b ∈ earlier, b.model.id ≠ a.model.id)) ∧
    (∀ a ∈ run, ∀ b ∈ run, a.model.id = b.model.id → a.outcome = b.outcome) ∧
    (∀ a ∈ run, if a.isBuilt then (a.outcome, a.after) = a.model.build a.before
      else a.after = a.before) ∧
    ∀ before t after model e, ts = before ++ t :: after → (turns {} before).needs t = some model →
      ((turns {} before).workspace.answer model).isBuilt = true →
      ((turns {} before).workspace.answer model).outcome = .error e →
      ∃ n, let others := before ++ .reserve n :: after.filter fun t => !t.names model.id
        (turns {} ts).forget model.id = turns {} others ∧
          run.filter (fun a => a.model.id ≠ model.id) = answers {} others := by
  intro run
  refine ⟨nodup_built {} ts, fun earlier a later h => isBuilt_iff_of_answers_eq h,
    outcome_eq_of_mem_answers {} ts, fun a ha => after_of_mem_answers ha, ?_⟩
  rintro before t after model e rfl hneeds hbuilt herror
  have hmiss : (turns {} before).workspace.catalog.lookup model.id = none :=
    Option.isNone_iff_eq_none.mp hbuilt
  exact exists_turns_forget hneeds hmiss herror

end Site

def tallyDescription : Description :=
  .setting (.field { fieldName := "id", slot := ["id"], type := .scalar .int64 }) .done

/-- The number 1 is the sentinel of the only field where the counter has not moved. -/
def pinnedModel : Model where
  id := 0
  typeName := "Pinned"
  initial := {}
  description := tallyDescription
  refinements := [.nullable (.other (.content (.scalar (.int64 1)) .elsewhere)) true]

/-- A text is never the sentinel of a field. -/
def brokenModel : Model where
  id := 1
  typeName := "Broken"
  initial := {}
  description := tallyDescription
  refinements := [.nullable (.other (.text "id")) true]

/-- Described first, the model has a mapping; behind a model that fails, it fails as well. -/
theorem describe_pinned_behind_broken :
    let w : Workspace := {}
    (w.describe pinnedModel).1.map (fun m => m.table.columns.map (·.nullable)) = .ok [true] ∧
      (w.describe brokenModel).1.map (·.table) =
        .error (.unmappedField (.notOfTable "Broken")) ∧
      ((w.describe brokenModel).2.describe pinnedModel).1.map (·.table) =
        .error (.unmappedField (.notOfTable "Pinned")) := by
  decide

namespace Site

/-- The model that fails is named by two uses of a database, and the other by a description and by
a new alias. -/
def quayTurns : List Turn :=
  [.describe pinnedModel, .command (.connect { product := "SQLite", version := "3.45.1" } {}),
    .command (.use 0 (.createTable brokenModel)), .reserve 2,
    .command (.use 0 (.operation (.insert brokenModel {}))), .command (.newAlias pinnedModel)]

theorem descriptions_fixed_quay :
    (answers {} quayTurns).map
        (fun a => (a.model.id, a.outcome.isOk, a.isBuilt, a.before, a.after)) =
      [(0, true, true, 1, 2), (1, false, true, 2, 3), (1, false, false, 5, 5),
        (0, true, false, 5, 5)] ∧
    ((answers {} quayTurns).filter (·.isBuilt)).map (·.model.id) = [0, 1] ∧
    ∃ n, (turns {} quayTurns).forget 1 = turns {}
      [.describe pinnedModel, .command (.connect { product := "SQLite", version := "3.45.1" } {}),
        .reserve n, .reserve 2, .command (.newAlias pinnedModel)] := by
  obtain ⟨-, -, -, -, hwithout⟩ := descriptions_fixed quayTurns
  have hfails : ((turns {} (quayTurns.take 2)).workspace.answer brokenModel).outcome =
      .error (.unmappedField (.notOfTable "Broken")) := by rfl
  obtain ⟨n, hstate, -⟩ := hwithout (quayTurns.take 2)
    (.command (.use 0 (.createTable brokenModel))) (quayTurns.drop 3) brokenModel _ rfl rfl
    (by decide) hfails
  exact ⟨by decide, by decide, n, hstate⟩

end Site

end RecordMapper
