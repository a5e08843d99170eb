import RecordMapper.Machine
import RecordMapper.Proofs.Workspace.Description

/-!
# One job after the other

A program without resets is the machine that brings each job to its end before the next begins.
-/

set_option autoImplicit false

namespace RecordMapper

def Act.resets : Act → Bool
  | resetCounter | resetCatalog => true
  | describe _ | create _ | refill _ | reserve _ | fresh _ => false

namespace Machine

/-- All jobs have been concluded. -/
def Idle (m : Machine) : Prop := ∀ job ∈ m.jobs, job.isOver = true

@[simp] theorem run_append (m : Machine) (moves later : List Move) :
    m.run (moves ++ later) = (m.run moves).run later :=
  List.foldl_append

theorem Idle.any_eq_false {m : Machine} (h : m.Idle) (model : Model) (i : Nat) :
    m.jobs.any (Job.builds model) = false ∧ m.jobs.any (Job.fills i) = false := by
  constructor
  · refine List.any_eq_false.mpr fun job hjob => ?_
    unfold Job.builds
    split <;> simp [h job hjob]
  · refine List.any_eq_false.mpr fun job hjob => ?_
    unfold Job.fills
    split <;> simp [h job hjob]

/-- A job that is carried on without interruption concludes with what it comes to alone. -/
theorem exists_run_proceed {m : Machine} {j : Nat} {errand : Errand} {pending : Drawing Generation}
    (hj : m.jobs[j]? = some { errand, pending }) :
    ∃ n, (m.run (List.replicate n (.proceed j))).toProgram =
        errand.conclude
          { m.toProgram with
            workspace := { m.workspace with counter := (pending.alone m.workspace.counter).2 } }
          (pending.alone m.workspace.counter).1 ∧
      (m.run (List.replicate n (.proceed j))).jobs = m.jobs.set j
        { errand, pending := .done (pending.alone m.workspace.counter).1, isOver := true } := by
  induction pending generalizing m with
  | done g =>
    have hstep : m.proceed j =
        { m with
          toProgram := errand.conclude m.toProgram g
          jobs := m.jobs.set j { errand, pending := .done g, isOver := true } } := by
      unfold proceed
      rw [hj]
      rfl
    refine ⟨1, ?_, ?_⟩
    · exact congrArg Machine.toProgram hstep
    · exact congrArg Machine.jobs hstep
  | draw n next ih =>
    have hstep : m.proceed j =
        { m.draw n (some j) with
          jobs := m.jobs.set j { errand, pending := next m.workspace.counter } } := by
      unfold proceed
      rw [hj]
    have hlast : (m.proceed j).jobs[j]? =
        some { errand, pending := next m.workspace.counter } := by
      rw [hstep, List.getElem?_set_self (List.getElem?_eq_some_iff.mp hj).1]
    obtain ⟨count, hprogram, hjobs⟩ := ih m.workspace.counter hlast
    refine ⟨count + 1, ?_, ?_⟩
    · rw [List.replicate_succ]
      change ((m.proceed j).run _).toProgram = _
      rw [hprogram, hstep]
      rfl
    · rw [List.replicate_succ]
      change ((m.proceed j).run _).jobs = _
      rw [hjobs, hstep, List.set_set]
      rfl

theorem Idle.exists_run_begin {m : Machine} (h : m.Idle) (errand : Errand) :
    ∃ moves, ((m.begin errand).run moves).toProgram =
        errand.conclude
          { m.toProgram with
            workspace :=
              { m.workspace with counter := (errand.draws.alone m.workspace.counter).2 } }
          (errand.draws.alone m.workspace.counter).1 ∧
      ((m.begin errand).run moves).Idle := by
  have hlast : (m.begin errand).jobs[m.jobs.length]? = some { errand, pending := errand.draws } := by
    rw [begin, List.getElem?_append_right (Nat.le_refl _), Nat.sub_self]
    rfl
  obtain ⟨n, hprogram, hjobs⟩ := exists_run_proceed hlast
  refine ⟨_, hprogram, ?_⟩
  intro job hjob
  rw [hjobs, begin, List.set_append_right _ _ (Nat.le_refl _), Nat.sub_self] at hjob
  rcases List.mem_append.mp hjob with hjob | hjob
  · exact h job hjob
  · obtain rfl := List.mem_singleton.mp hjob
    rfl

theorem Idle.exists_run_describe {m : Machine} (h : m.Idle) (model : Model) :
    ∃ moves, (m.run moves).toProgram =
        { m.toProgram with workspace := (m.workspace.describe model).2 } ∧
      (m.run moves).Idle := by
  cases hfound : m.workspace.catalog.lookup model.id with
  | some outcome => exact ⟨[], by rw [Workspace.describe_of_lookup hfound]; rfl, h⟩
  | none =>
    have hidle := (h.any_eq_false model 0).1
    rw [Workspace.describe_of_miss hfound]
    cases hfinish : (model.description.draft {}).finish model.typeName with
    | error e =>
      have hrefused : m.describe model =
          { m with workspace := m.workspace.enter model (.error e) } := by
        simp [describe, hfound, hidle, hfinish]
      refine ⟨[.describe model], ?_, ?_⟩
      · change (m.describe model).toProgram = _
        rw [hrefused, Model.build, hfinish]
      · change (m.describe model).Idle
        rw [hrefused]
        exact h
    | ok described =>
      have hbegun : m.describe model = m.begin (.build model described) := by
        simp [describe, hfound, hidle, hfinish]
      obtain ⟨moves, hprogram, hidle⟩ := h.exists_run_begin (.build model described)
      refine ⟨.describe model :: moves, ?_, ?_⟩
      · change ((m.describe model).run moves).toProgram = _
        rw [hbegun, hprogram, Errand.draws, Registry.alone_generating, Model.build, hfinish]
        rfl
      · change ((m.describe model).run moves).Idle
        rwa [hbegun]

theorem Idle.exists_run_refill {m : Machine} (h : m.Idle) (i : Nat) :
    ∃ moves, (m.run moves).toProgram = m.toProgram.refill i ∧ (m.run moves).Idle := by
  unfold Program.refill
  cases ha : m.aliases[i]? with
  | none => exact ⟨[], rfl, h⟩
  | some entry =>
    obtain ⟨a, complete⟩ := entry
    have hbegun : m.refill i = m.begin (.fill a (some i)) := by
      rw [refill, ha]
      exact if_neg (Bool.eq_false_iff.mp (h.any_eq_false a.model i).2)
    obtain ⟨moves, hprogram, hidle⟩ := h.exists_run_begin (.fill a (some i))
    refine ⟨.refill i :: moves, ?_, ?_⟩
    · change ((m.refill i).run moves).toProgram = _
      rw [hbegun, hprogram, Errand.draws, Registry.alone_generating]
      rfl
    · change ((m.refill i).run moves).Idle
      rwa [hbegun]

theorem Idle.exists_run_create {m : Machine} (h : m.Idle) (model : Model) :
    ∃ moves, (m.run moves).toProgram = m.toProgram.create model ∧ (m.run moves).Idle := by
  obtain ⟨moves, hprogram, hidle⟩ := h.exists_run_describe model
  have hfound := Workspace.lookup_describe m.workspace model
  have hworkspace : (m.run moves).workspace = (m.workspace.describe model).2 :=
    congrArg Program.workspace hprogram
  have haliases : (m.run moves).aliases = m.aliases := by rw [hprogram]
  unfold Program.create Workspace.newAlias
  rcases hdescribe : m.workspace.describe model with ⟨e | mapping, w⟩
  · rw [hdescribe] at hprogram
    exact ⟨moves, hprogram, hidle⟩
  · rw [hdescribe] at hfound hworkspace hprogram
    let a : Alias := { id := w.nextAlias, model, mapping, record := model.initial }
    let workspace := { w with nextAlias := w.nextAlias + 1 }
    have hbegun : (m.run moves).create model =
        begin { m.run moves with workspace } (.fill a none) := by
      rw [create, hworkspace, hfound]
    have hidle' : Idle { m.run moves with workspace } := hidle
    obtain ⟨later, hfilled, hidle'⟩ := hidle'.exists_run_begin (.fill a none)
    refine ⟨moves ++ .create model :: later, ?_, ?_⟩
    · rw [run_append]
      change (((m.run moves).create model).run later).toProgram = _
      rw [hbegun, hfilled, Errand.draws, Registry.alone_generating]
      rw [← haliases]
      dsimp only [Errand.conclude, Alias.refill]
      rcases (a.registry.generate a.id a.mapping.fields a.record w.counter).outcome with e | ⟨⟩
      · rfl
      · rfl
    · rw [run_append]
      change (((m.run moves).create model).run later).Idle
      rwa [hbegun]

theorem Idle.exists_run_step {m : Machine} (h : m.Idle) {act : Act}
    (hact : act.resets = false) :
    ∃ moves, (m.run moves).toProgram = m.toProgram.step act ∧ (m.run moves).Idle := by
  cases act with
  | describe model => exact h.exists_run_describe model
  | create model => exact h.exists_run_create model
  | refill i => exact h.exists_run_refill i
  | reserve n => exact ⟨[.reserve n], rfl, h⟩
  | fresh type => exact ⟨[.fresh type], rfl, h⟩
  | resetCounter | resetCatalog => cases hact

/-- What a program does without resets, one thing after the other, is one of the interleavings. -/
theorem exists_run_eq_foldl (p : Program) {acts : List Act}
    (hacts : ∀ act ∈ acts, act.resets = false) :
    ∃ moves, (run { p with } moves).toProgram = acts.foldl Program.step p := by
  have extend (m : Machine) (h : m.Idle) :
      ∃ moves, (m.run moves).toProgram = acts.foldl Program.step m.toProgram := by
    induction acts generalizing m with
    | nil => exact ⟨[], rfl⟩
    | cons act rest ih =>
      obtain ⟨moves, hstep, hidle⟩ := h.exists_run_step (hacts act List.mem_cons_self)
      obtain ⟨later, hrest⟩ := ih (fun act hact => hacts act (List.mem_cons_of_mem _ hact)) _ hidle
      refine ⟨moves ++ later, ?_⟩
      rw [run_append, hrest, hstep]
      rfl
  exact extend _ (by simp [Idle])

end Machine

end RecordMapper
