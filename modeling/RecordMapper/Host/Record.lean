import RecordMapper.Host.Field

/-!
# Records

A record is the content of its fields, each reached through its slot, and the layout that says
which of them share a place.
-/

set_option autoImplicit false

namespace RecordMapper

/-- How the fields of a record lie in memory, as far as it can be told from addresses: the slots
that stand at the place of another slot, each with that other one. -/
class Layout where
  shared : List (Slot × Slot)
deriving DecidableEq

/-- Unless it is said otherwise, each field has a place to itself. -/
instance : Layout := ⟨[]⟩

/-- The slot by which the place of a slot is named. -/
def Layout.anchor (layout : Layout) (slot : Slot) : Slot :=
  (layout.shared.lookup slot).getD slot

structure Record where
  entries : List (Slot × FieldValue) := []
  [layout : Layout]
deriving DecidableEq

namespace Record

def find? (slot : Slot) : List (Slot × FieldValue) → Option FieldValue
  | [] => none
  | (other, v) :: rest => if other = slot then some v else find? slot rest

/-- The entries with the first one for `slot` replaced, or a new one at the end. -/
def replace (slot : Slot) (v : FieldValue) : List (Slot × FieldValue) → List (Slot × FieldValue)
  | [] => [(slot, v)]
  | (other, w) :: rest =>
    if other = slot then (slot, v) :: rest else (other, w) :: replace slot v rest

def get (r : Record) (slot : Slot) : FieldValue := (find? slot r.entries).getD default

def set (r : Record) (slot : Slot) (v : FieldValue) : Record :=
  { r with entries := replace slot v r.entries }

/-- Where the field in `slot` stands if the record belongs to `owner`. -/
def place (r : Record) (owner : Nat) (slot : Slot) : Place :=
  .field owner (r.layout.anchor slot)

/-- How the field in `slot` is recognised if the record belongs to `owner`. -/
def key (r : Record) (owner : Nat) (slot : Slot) : Key := (r.get slot).key (r.place owner slot)

@[simp] theorem layout_set (r : Record) (slot : Slot) (v : FieldValue) :
    (r.set slot v).layout = r.layout := rfl

theorem find?_replace (slot wanted : Slot) (v : FieldValue) (entries : List (Slot × FieldValue)) :
    find? wanted (replace slot v entries) =
      if slot = wanted then some v else find? wanted entries := by
  induction entries with
  | nil => rfl
  | cons entry rest ih =>
    obtain ⟨other, w⟩ := entry
    by_cases hs : other = slot
    · subst hs
      by_cases hw : other = wanted <;> simp [replace, find?, hw]
    · by_cases hw : other = wanted
      · subst hw
        have hne : ¬ slot = other := fun h => hs h.symm
        simp [replace, find?, hs, hne]
      · simp [replace, find?, hs, hw, ih]

@[simp] theorem get_set (r : Record) (slot wanted : Slot) (v : FieldValue) :
    (r.set slot v).get wanted = if slot = wanted then v else r.get wanted := by
  simp only [get, set, find?_replace]
  split <;> rfl

end Record

end RecordMapper
