import RecordMapper.Proofs.Database.Catalog
import RecordMapper.Proofs.Registry.Staleness
import RecordMapper.Site

/-!
# Forgetting a model

Nothing that is done with one model sees what the catalog has of another. So the outcome of a model
may be taken out of the catalog before a step or after it.
-/

set_option autoImplicit false

namespace RecordMapper

namespace Catalog

/-- The catalog without the outcome of the model of this number. -/
def without (id : Nat) (catalog : Catalog) : Catalog := catalog.filter fun entry => entry.1 ≠ id

theorem lookup_without {id other : Nat} (h : other ≠ id) (catalog : Catalog) :
    (without id catalog).lookup other = catalog.lookup other := by
  induction catalog with
  | nil => rfl
  | cons entry rest ih =>
    by_cases hid : entry.1 = id
    · have hother : (other == entry.1) = false := by
        rw [hid]
        exact beq_false_of_ne h
      rw [without, List.filter_cons_of_neg (by simpa using hid), List.lookup_cons, hother]
      exact ih
    · rw [without, List.filter_cons_of_pos (by simpa using hid), List.lookup_cons, List.lookup_cons]
      cases other == entry.1
      · exact ih
      · rfl

theorem without_of_lookup_none {id : Nat} {catalog : Catalog} (h : catalog.lookup id = none) :
    without id catalog = catalog := by
  refine List.filter_eq_self.mpr fun entry hentry => decide_eq_true ?_
  rintro rfl
  have hfound := List.lookup_eq_none_iff.mp h entry hentry
  simp at hfound

@[simp] theorem without_cons_self (id : Nat) (outcome : Result Mapping) (catalog : Catalog) :
    without id ((id, outcome) :: catalog) = without id catalog :=
  List.filter_cons_of_neg (by simp)

theorem without_cons {id other : Nat} (h : other ≠ id) (outcome : Result Mapping)
    (catalog : Catalog) :
    without id ((other, outcome) :: catalog) = (other, outcome) :: without id catalog :=
  List.filter_cons_of_pos (by simpa using h)

end Catalog

namespace Workspace
variable {w : Workspace} {model : Model} {id : Nat}

def forget (id : Nat) (w : Workspace) : Workspace :=
  { w with catalog := Catalog.without id w.catalog }

theorem forget_enter (h : model.id ≠ id) (w : Workspace) (outcome : Result Mapping) :
    (w.enter model outcome).forget id = (w.forget id).enter model outcome := by
  cases outcome with
  | ok m => simp only [forget, enter, log, Catalog.without_cons h]
  | error e => simp only [forget, enter, Catalog.without_cons h]

theorem describe_forget (h : model.id ≠ id) (w : Workspace) :
    (w.forget id).describe model = ((w.describe model).1, (w.describe model).2.forget id) := by
  have hsame := Catalog.lookup_without h w.catalog
  cases hfound : w.catalog.lookup model.id with
  | some outcome => rw [describe_of_lookup (hsame.trans hfound), describe_of_lookup hfound]
  | none =>
    rw [describe_of_miss (hsame.trans hfound), describe_of_miss hfound, forget_enter h]
    rfl

theorem newAlias_forget (h : model.id ≠ id) (w : Workspace) :
    (w.forget id).newAlias model = ((w.newAlias model).1, (w.newAlias model).2.forget id) := by
  rw [newAlias, describe_forget h, newAlias]
  rcases w.describe model with ⟨e | mapping, next⟩
  · rfl
  · rfl

theorem newAlias_of_error {e : Error} (h : (w.describe model).1 = .error e) :
    (w.newAlias model).2 = (w.describe model).2 := by
  rw [newAlias]
  rcases hdescribe : w.describe model with ⟨e' | mapping, next⟩
  · rfl
  · rw [hdescribe] at h
    cases h

theorem catalog_newAlias (w : Workspace) (model : Model) :
    (w.newAlias model).2.catalog = (w.describe model).2.catalog := by
  rw [newAlias]
  rcases w.describe model with ⟨e | mapping, next⟩
  · rfl
  · rfl

/-- A failure is remembered, and the counter stands behind what has been drawn for it. -/
theorem forget_describe_of_error (hfound : w.catalog.lookup model.id = none) {e : Error}
    (h : (w.describe model).1 = .error e) :
    (w.describe model).2.forget model.id =
      (w.reserve (Sentinel.distance w.counter (w.describe model).2.counter)).2 := by
  rw [describe_of_miss hfound] at h ⊢
  dsimp only at h ⊢
  rw [h, counter_enter, reserve, Sentinel.advance_distance]
  simp [forget, enter, Catalog.without_of_lookup_none hfound]

end Workspace

namespace Session
variable {α : Type} {model : Model} {x : Session α}

theorem after_describe_bind (f : Mapping → Session α) (s : SessionState) :
    (describe model >>= f).after s =
      match s.workspace.describe model with
      | (.ok m, w) => (f m).after { s with workspace := w }
      | (.error _, w) => { s with workspace := w } := by
  rw [after_bind]
  have hdescribe : describe model s =
      ofResult (s.workspace.describe model).1
        { s with workspace := (s.workspace.describe model).2 } := rfl
  rw [hdescribe]
  rcases s.workspace.describe model with ⟨e | m, w⟩
  · rfl
  · rfl

namespace Describes

theorem catalog_after (hx : x.Describes model) (s : SessionState) :
    (x.after s).workspace.catalog = (s.workspace.describe model).2.catalog := by
  obtain ⟨f, hf, rfl⟩ := hx
  rw [after_describe_bind]
  rcases s.workspace.describe model with ⟨e | m, w⟩
  · rfl
  · exact (hf m).catalog_after _

theorem after_of_error (hx : x.Describes model) {s : SessionState} {e : Error}
    (h : (s.workspace.describe model).1 = .error e) :
    x.after s = { s with workspace := (s.workspace.describe model).2 } := by
  obtain ⟨f, -, rfl⟩ := hx
  rw [after_describe_bind]
  rcases hdescribe : s.workspace.describe model with ⟨e' | m, w⟩
  · rfl
  · rw [hdescribe] at h
    cases h

theorem after_forget (hx : x.Describes model) {id : Nat} (h : model.id ≠ id) (s : SessionState) :
    x.after { s with workspace := s.workspace.forget id } =
      { x.after s with workspace := (x.after s).workspace.forget id } := by
  obtain ⟨f, hf, rfl⟩ := hx
  rw [after_describe_bind, after_describe_bind, Workspace.describe_forget h]
  rcases s.workspace.describe model with ⟨e | m, w⟩
  · rfl
  · have hcatalog := (hf m).catalog_after { s with workspace := w }
    refine ((hf m).after_withCatalog { s with workspace := w } _).trans ?_
    rw [Workspace.forget, hcatalog]
    rfl

end Describes

theorem IgnoresCatalog.after_forget (hx : x.IgnoresCatalog) (id : Nat) (s : SessionState) :
    x.after { s with workspace := s.workspace.forget id } =
      { x.after s with workspace := (x.after s).workspace.forget id } := by
  refine (hx.after_withCatalog s _).trans ?_
  rw [Workspace.forget, hx.catalog_after]
  rfl

end Session

namespace Usage
variable {usage : Usage}

theorem catalog_after (usage : Usage) (s : SessionState) :
    (usage.after s).workspace.catalog =
      match usage.model? with
      | some model => (s.workspace.describe model).2.catalog
      | none => s.workspace.catalog := by
  cases hmodel : usage.model? with
  | some model =>
    obtain ⟨α, x, hx, hafter⟩ := exists_describes hmodel
    rw [hafter]
    exact hx.catalog_after s
  | none =>
    obtain ⟨α, x, hx, hafter⟩ := exists_ignoresCatalog hmodel
    rw [hafter]
    exact hx.catalog_after s

/-- A use that needs another model does not see what is forgotten. -/
theorem after_forget {id : Nat} (h : ∀ model, usage.model? = some model → model.id ≠ id)
    (s : SessionState) : usage.after { s with workspace := s.workspace.forget id } =
      { usage.after s with workspace := (usage.after s).workspace.forget id } := by
  cases hmodel : usage.model? with
  | some model =>
    obtain ⟨α, x, hx, hafter⟩ := exists_describes hmodel
    rw [hafter, hafter]
    exact hx.after_forget (h model hmodel) s
  | none =>
    obtain ⟨α, x, hx, hafter⟩ := exists_ignoresCatalog hmodel
    rw [hafter, hafter]
    exact hx.after_forget id s

end Usage

/-- Whether the turn is about the model of this number. -/
def Turn.names (id : Nat) : Turn → Bool
  | describe model | command (.newAlias model) => model.id == id
  | command (.use _ usage) => usage.model?.any fun model => model.id == id
  | _ => false

namespace Site

/-- The model that is described in the course of a turn. -/
def needs (s : Site) : Turn → Option Model
  | .describe model | .command (.newAlias model) => some model
  | .command (.use i usage) => if i < s.databases.length then usage.model? else none
  | _ => none

def forget (id : Nat) (s : Site) : Site := { s with workspace := s.workspace.forget id }

variable {s : Site} {c : Turn} {model : Model} {id : Nat}

theorem use_of_lt {i : Nat} (hi : i < s.databases.length) (usage : Usage) :
    s.use i usage =
      { workspace := (usage.after ⟨s.workspace, s.databases[i]⟩).workspace
        databases := s.databases.set i (usage.after ⟨s.workspace, s.databases[i]⟩).database } := by
  rw [use, List.getElem?_eq_getElem hi]

theorem use_of_not_lt {i : Nat} (hi : ¬i < s.databases.length) (usage : Usage) :
    s.use i usage = s := by
  rw [use, List.getElem?_eq_none (Nat.le_of_not_lt hi)]

theorem id_of_needs (h : s.needs c = some model) (id : Nat) :
    c.names id = (model.id == id) := by
  cases c with
  | describe other =>
    obtain rfl := Option.some.inj h
    rfl
  | reserve n => cases h
  | command c =>
    cases c with
    | newAlias other =>
      obtain rfl := Option.some.inj h
      rfl
    | use i usage =>
      rw [needs] at h
      split at h
      · rw [Turn.names, h]
        rfl
      · cases h
    | connect | refill | subscribe | unsubscribe | resetCounts => cases h

/-- A turn changes the catalog only by describing. -/
theorem catalog_turn (s : Site) (c : Turn) :
    (s.turn c).workspace.catalog =
      match s.needs c with
      | some model => (s.workspace.describe model).2.catalog
      | none => s.workspace.catalog := by
  cases c with
  | describe model => rfl
  | reserve n => rfl
  | command c =>
    cases c with
    | newAlias model => exact Workspace.catalog_newAlias _ _
    | use i usage =>
      change (s.use i usage).workspace.catalog = _
      rw [needs]
      by_cases hi : i < s.databases.length
      · rw [use_of_lt hi, if_pos hi]
        exact usage.catalog_after ⟨s.workspace, s.databases[i]⟩
      · rw [use_of_not_lt hi, if_neg hi]
    | connect | refill | subscribe | unsubscribe | resetCounts => rfl

/-- Where the description fails, a turn comes to nothing else. -/
theorem turn_of_error (hneeds : s.needs c = some model) {e : Error}
    (h : (s.workspace.describe model).1 = .error e) : s.turn c = s.turn (.describe model) := by
  cases c with
  | describe other =>
    obtain rfl := Option.some.inj hneeds
    rfl
  | reserve n => cases hneeds
  | command c =>
    cases c with
    | newAlias other =>
      obtain rfl := Option.some.inj hneeds
      exact congrArg (fun w => { s with workspace := w }) (Workspace.newAlias_of_error h)
    | use i usage =>
      rw [needs] at hneeds
      split at hneeds
      · next hi =>
        obtain ⟨α, x, hx, hafter⟩ := Usage.exists_describes hneeds
        change s.use i usage = _
        rw [use_of_lt hi, hafter, hx.after_of_error h, List.set_getElem_self]
        rfl
      · cases hneeds
    | connect | refill | subscribe | unsubscribe | resetCounts => cases hneeds

@[simp] theorem needs_forget (id : Nat) (s : Site) (c : Turn) :
    (s.forget id).needs c = s.needs c := by
  cases c with
  | describe | reserve => rfl
  | command c => cases c <;> rfl

/-- Turns about other models do not see what is forgotten. -/
theorem turn_forget (hc : c.names id = false) (s : Site) :
    (s.forget id).turn c = (s.turn c).forget id := by
  cases c with
  | describe model =>
    have hid : model.id ≠ id := by simpa [Turn.names] using hc
    rw [turn, turn, forget, Workspace.describe_forget hid]
    rfl
  | reserve n => rfl
  | command c =>
    cases c with
    | newAlias model =>
      have hid : model.id ≠ id := by simpa [Turn.names] using hc
      change ({ s with workspace := ((s.workspace.forget id).newAlias model).2 } : Site) = _
      rw [Workspace.newAlias_forget hid]
      rfl
    | use i usage =>
      change (s.forget id).use i usage = (s.use i usage).forget id
      by_cases hi : i < s.databases.length
      · have hother : ∀ model, usage.model? = some model → model.id ≠ id := by
          intro model hmodel
          simpa [Turn.names, hmodel] using hc
        have hforget := Usage.after_forget hother ⟨s.workspace, s.databases[i]⟩
        rw [use_of_lt (s := s.forget id) hi, use_of_lt hi]
        change (Site.mk (usage.after ⟨s.workspace.forget id, s.databases[i]⟩).workspace
          (s.databases.set i (usage.after ⟨s.workspace.forget id, s.databases[i]⟩).database)) = _
        rw [hforget]
        rfl
      · rw [use_of_not_lt (s := s.forget id) hi, use_of_not_lt hi]
    | connect | refill | subscribe | unsubscribe | resetCounts => rfl

end Site

end RecordMapper
