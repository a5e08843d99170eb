import Mathlib.Data.List.Nodup
import RecordMapper.Program
import RecordMapper.Proofs.Registry.Generation

/-!
# Programs that create and refill aliases

A program describes models, creates aliases and refills them, and draws sentinels of its own in
between, in any order. Its aliases have different numbers throughout, and an alias whose latest
generation has succeeded stands by the law of a filled record.
-/

set_option autoImplicit false

namespace RecordMapper

def Alias.IsFilled (a : Alias) : Prop :=
  Filled a.id a.mapping.fields a.record a.registry.current

@[simp] theorem Alias.id_refill (a : Alias) (counter : UInt32) :
    (a.refill counter).1.id = a.id := rfl

theorem Alias.isFilled_refill {a : Alias} {counter : UInt32}
    (h : (a.refill counter).2.2 = .ok ()) : (a.refill counter).1.IsFilled :=
  Registry.filled_generate h

namespace Workspace

@[simp] theorem nextAlias_describe (w : Workspace) (model : Model) :
    (w.describe model).2.nextAlias = w.nextAlias := by
  unfold describe
  split
  · rfl
  · split
    rename_i outcome counter hbuild
    cases outcome <;> rfl

/-- A new alias is filled, and its number has not been given before. -/
theorem newAlias_of_ok {w w' : Workspace} {model : Model} {a : Alias}
    (h : w.newAlias model = (.ok a, w')) :
    a.IsFilled ∧ a.id = w.nextAlias ∧ w'.nextAlias = w.nextAlias + 1 := by
  have hnext := nextAlias_describe w model
  unfold newAlias at h
  split at h
  · simp at h
  · next mapping described hdescribe =>
    rw [hdescribe] at hnext
    let blank : Alias := { id := described.nextAlias, model, mapping, record := model.initial }
    have hfilled := @Alias.isFilled_refill blank described.counter
    obtain ⟨ha, rfl⟩ := Prod.mk.inj h
    change (blank.refill described.counter).2.2.map (fun _ => (blank.refill described.counter).1) =
      .ok a at ha
    cases hok : (blank.refill described.counter).2.2 with
    | error e => rw [hok] at ha; cases ha
    | ok u =>
      rw [hok] at ha
      obtain rfl := Except.ok.inj ha
      exact ⟨hfilled hok, hnext, congrArg (· + 1) hnext⟩

theorem nextAlias_newAlias_le (w : Workspace) (model : Model) :
    w.nextAlias ≤ (w.newAlias model).2.nextAlias := by
  have hnext := nextAlias_describe w model
  unfold newAlias
  split
  · next hdescribe => rw [hdescribe] at hnext; exact Nat.le_of_eq hnext.symm
  · next hdescribe => rw [hdescribe] at hnext; exact hnext ▸ Nat.le_succ _

end Workspace

namespace Program

structure Sound (p : Program) : Prop where
  filled : ∀ a, (a, true) ∈ p.aliases → a.IsFilled
  nodup : (p.aliases.map (·.1.id)).Nodup
  lt_next : ∀ entry ∈ p.aliases, entry.1.id < p.workspace.nextAlias

theorem Sound.of_workspace {p : Program} (h : p.Sound) {w : Workspace}
    (hw : p.workspace.nextAlias ≤ w.nextAlias) : Sound { p with workspace := w } where
  filled := h.filled
  nodup := h.nodup
  lt_next entry hentry := Nat.lt_of_lt_of_le (h.lt_next entry hentry) hw

theorem Sound.create {p : Program} (h : p.Sound) (model : Model) : (p.create model).Sound := by
  unfold Program.create
  split
  · next a workspace hnew =>
    obtain ⟨hfilled, hid, hnext⟩ := Workspace.newAlias_of_ok hnew
    refine ⟨fun b hb => ?_, ?_, fun entry hentry => ?_⟩
    · rcases List.mem_append.mp hb with hb | hb
      · exact h.filled b hb
      · obtain ⟨rfl, -⟩ := Prod.mk.inj (List.mem_singleton.mp hb)
        exact hfilled
    · simp only [List.map_append, List.map_cons, List.map_nil]
      refine List.nodup_append.mpr ⟨h.nodup, by simp, fun id hold other hnew' heq => ?_⟩
      obtain ⟨entry, hentry, rfl⟩ := List.mem_map.mp hold
      have hlt := h.lt_next entry hentry
      have hother := List.mem_singleton.mp hnew'
      omega
    · change entry.1.id < workspace.nextAlias
      rw [hnext]
      rcases List.mem_append.mp hentry with hentry | hentry
      · exact Nat.lt_succ_of_lt (h.lt_next entry hentry)
      · obtain rfl := List.mem_singleton.mp hentry
        exact Nat.lt_succ_of_le (Nat.le_of_eq hid)
  · next e workspace hnew =>
    have hle := Workspace.nextAlias_newAlias_le p.workspace model
    rw [hnew] at hle
    exact h.of_workspace hle

theorem map_set_of_eq {α β : Type} (f : α → β) {l : List α} {i : Nat} {old new : α}
    (hold : l[i]? = some old) (h : f new = f old) : (l.set i new).map f = l.map f := by
  apply List.ext_getElem?
  intro j
  rw [List.map_set, List.getElem?_set]
  split
  · next hj =>
    subst hj
    obtain ⟨hi, hget⟩ := List.getElem?_eq_some_iff.mp hold
    simp [hi, hget, h]
  · rfl

theorem Sound.refill {p : Program} (h : p.Sound) (i : Nat) : (p.refill i).Sound := by
  unfold Program.refill
  split
  · next a complete ha =>
    refine ⟨fun b hb => ?_, ?_, fun entry hentry => ?_⟩
    · rcases List.mem_or_eq_of_mem_set hb with hb | hb
      · exact h.filled b hb
      · obtain ⟨rfl, hok⟩ := Prod.mk.inj hb
        apply Alias.isFilled_refill
        rcases hr : (a.refill p.workspace.counter).2.2 with e | ⟨⟩
        · simp [Workspace.refill, hr, Except.isOk, Except.toBool] at hok
        · rfl
    · have hsame : (p.aliases.set i ((p.workspace.refill a).1, (p.workspace.refill a).2.1.isOk)).map
          (·.1.id) = p.aliases.map (·.1.id) := map_set_of_eq (·.1.id) ha (Alias.id_refill a _)
      exact hsame ▸ h.nodup
    · rcases List.mem_or_eq_of_mem_set hentry with hentry | rfl
      · exact h.lt_next entry hentry
      · exact h.lt_next (a, complete) (List.mem_of_getElem? ha)
  · exact h

theorem Sound.step {p : Program} (h : p.Sound) (act : Act) : (p.step act).Sound := by
  cases act with
  | describe model =>
    exact h.of_workspace (Nat.le_of_eq (Workspace.nextAlias_describe _ model).symm)
  | create model => exact h.create model
  | refill i => exact h.refill i
  | reserve n => exact h.of_workspace (Nat.le_refl _)
  | fresh type => exact h.of_workspace (Nat.le_refl _)
  | resetCounter => exact h.of_workspace (Nat.le_refl _)
  | resetCatalog => exact h.of_workspace (Nat.le_refl _)

theorem sound_run (acts : List Act) : (run acts).Sound := by
  have extend (p : Program) (h : p.Sound) : (acts.foldl step p).Sound := by
    induction acts generalizing p with
    | nil => exact h
    | cons act rest ih => exact ih (p.step act) (h.step act)
  exact extend {} ⟨by simp, by simp, by simp⟩

/-- The number and the mapping of each alias, which it keeps for good, whatever becomes of its
record. -/
def identities (p : Program) : List (Nat × Mapping) := p.aliases.map fun e => (e.1.id, e.1.mapping)

theorem identities_step (p : Program) (act : Act) : p.identities <+: (p.step act).identities := by
  cases act with
  | create model =>
    change p.identities <+: (p.create model).identities
    unfold Program.create
    split
    · exact (List.prefix_append p.aliases _).map fun e => (e.1.id, e.1.mapping)
    · exact List.prefix_rfl
  | refill i =>
    change p.identities <+: (p.refill i).identities
    unfold Program.refill
    split
    · next a complete ha =>
      let filled := ((p.workspace.refill a).1, (p.workspace.refill a).2.1.isOk)
      have hsame : (p.aliases.set i filled).map (fun e => (e.1.id, e.1.mapping)) = p.identities := by
        apply map_set_of_eq _ ha
        rfl
      exact hsame ▸ List.prefix_rfl
    · exact List.prefix_rfl
  | describe | reserve | fresh | resetCounter | resetCatalog => exact List.prefix_rfl

theorem identities_run (acts later : List Act) :
    (run acts).identities <+: (run (acts ++ later)).identities := by
  have extend (p : Program) : p.identities <+: (later.foldl step p).identities := by
    induction later generalizing p with
    | nil => exact List.prefix_rfl
    | cons act rest ih => exact (p.identities_step act).trans (ih (p.step act))
  rw [run, run, List.foldl_append]
  exact extend _

/-- Whatever a program has done in between, an alias of the same number is the same alias. -/
theorem mapping_eq_of_id_eq {acts later : List Act} {a b : Alias} {complete complete' : Bool}
    (ha : (a, complete) ∈ (run acts).aliases)
    (hb : (b, complete') ∈ (run (acts ++ later)).aliases) (hid : b.id = a.id) :
    b.mapping = a.mapping := by
  have hkept : (a.id, a.mapping) ∈ (run (acts ++ later)).identities :=
    (identities_run acts later).subset (List.mem_map_of_mem (f := fun e => (e.1.id, e.1.mapping)) ha)
  obtain ⟨entry, hentry, heq⟩ := List.mem_map.mp hkept
  obtain ⟨hid', hmapping⟩ := Prod.mk.inj heq
  have hsame : (b, complete') = entry :=
    List.inj_on_of_nodup_map (sound_run (acts ++ later)).nodup hb hentry (hid.trans hid'.symm)
  rw [← hmapping, ← hsame]

end Program

end RecordMapper
