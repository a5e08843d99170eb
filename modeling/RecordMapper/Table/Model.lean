import RecordMapper.Table.Description
import RecordMapper.Table.Refinement
import RecordMapper.Table.Sealing

/-!
# Models

A model is a record type with its description and its refinements. Building its mapping takes
four steps: the description is carried out, a record is filled with sentinels, the refinements are
applied to it, and the result is sealed.
-/

set_option autoImplicit false

namespace RecordMapper

structure Model where
  id : Nat
  typeName : String
  /-- The record as it is before anything has been set. -/
  initial : Record
  description : Description
  refinements : List Refinement := []

namespace Model

/-- Refines the mapping against the model's record, filled with sentinels. -/
def refined (model : Model) (m : Mapping) (g : Generation) : Result Mapping := do
  g.outcome
  model.refinements.foldlM (RefinementScope.apply ⟨g.registry, g.record⟩) m

def build (model : Model) (counter : UInt32) : Result Mapping × UInt32 :=
  match (model.description.draft {}).finish model.typeName with
  | .error e => (.error e, counter)
  | .ok described =>
    let g := Registry.generate {} refinementOwner described.fields model.initial counter
    (do (← model.refined described g).sealed model.typeName, g.counter)

end Model

end RecordMapper
