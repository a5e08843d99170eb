import RecordMapper.Proofs.Workspace.Catalog

/-!
# What a description leaves behind

A model that is in the catalog is read from it, and nothing else happens. One that is not is built,
and its outcome is entered, an error as well as a mapping.
-/

set_option autoImplicit false

namespace RecordMapper.Workspace

section
variable (w : Workspace) (model : Model) (outcome : Result Mapping)

@[simp] theorem catalog_enter :
    (w.enter model outcome).catalog = (model.id, outcome) :: w.catalog := by
  cases outcome <;> rfl

@[simp] theorem counter_enter : (w.enter model outcome).counter = w.counter := by
  cases outcome <;> rfl

end

variable {w : Workspace} {model : Model}

theorem describe_of_lookup {outcome : Result Mapping}
    (h : w.catalog.lookup model.id = some outcome) : w.describe model = (outcome, w) := by
  rw [describe, h]

theorem describe_of_miss (h : w.catalog.lookup model.id = none) :
    w.describe model = ((model.build w.counter).1,
      enter { w with counter := (model.build w.counter).2 } model (model.build w.counter).1) := by
  rw [describe, h]

/-- Afterwards the catalog holds what has been answered. -/
theorem lookup_describe (w : Workspace) (model : Model) :
    (w.describe model).2.catalog.lookup model.id = some (w.describe model).1 := by
  cases h : w.catalog.lookup model.id with
  | some outcome => rw [describe_of_lookup h, h]
  | none => rw [describe_of_miss h, catalog_enter, List.lookup_cons_self]

end RecordMapper.Workspace
