import Mathlib.Data.List.Nodup
import RecordMapper.Proofs.Query.Resolution
import RecordMapper.Proofs.Registry.Filling

/-!
# Keys of fields that have slots of their own

Where the registered fields are distinct slots, a generation enters one key for each field, in the
order of the fields, and no key twice. The entries are made while the record is still being filled:
that they are the keys of the finished record holds because filling a field, however often a
sentinel is drawn for it, leaves the slots of the other fields alone.

A slot is what the field is in memory. Fields that take up no room, and so may stand at the place
of others, are not told apart by where they stand: those at one place have one key, which denotes
the last of them.
-/

set_option autoImplicit false

namespace RecordMapper

/-- How the fields are recognised, in their order, if the record belongs to `owner`. -/
def Record.keys (r : Record) (owner : Nat) (fields : List FieldMapping) : List Key :=
  fields.map fun f => r.key owner f.slot

namespace Refill

theorem enter_of_not_mem {key : Key} {keys : List (Key × Nat)} (h : key ∉ keys.map (·.1))
    (i : Nat) : enter key i keys = keys ++ [(key, i)] := by
  induction keys with
  | nil => rfl
  | cons entry rest ih =>
    rw [List.map_cons, List.mem_cons, not_or] at h
    have hentry : ¬ entry.1 = key := fun heq => h.1 heq.symm
    simp only [enter, if_neg hentry, ih h.2, List.cons_append]

end Refill

/-- The entries are the keys of the fields with their positions, and no key occurs twice. -/
structure Exact (owner : Nat) (fields : List FieldMapping) (record : Record)
    (keys : List (Key × Nat)) : Prop where
  keys_eq : keys = (record.keys owner fields).zipIdx
  nodup : (record.keys owner fields).Nodup
  sentinel : ∀ f ∈ fields, ∃ seq, f.type.sentinel seq = .ok (record.get f.slot)

namespace Exact

variable {owner : Nat} {fields : List FieldMapping}

theorem nil (owner : Nat) (record : Record) : Exact owner [] record [] where
  keys_eq := rfl
  nodup := List.nodup_nil
  sentinel := by simp

theorem map_fst {record : Record} {keys : List (Key × Nat)} (h : Exact owner fields record keys) :
    keys.map (·.1) = record.keys owner fields := by
  rw [h.keys_eq]
  exact List.zipIdx_map_fst 0 _

section Snoc
variable {f : FieldMapping} {r s : Refill} {key : Key}

/-- A key by value has been compared with the earlier ones, a key by place belongs to no other
slot. -/
theorem key_not_mem (h : Exact owner fields r.record r.keys)
    (hf : Refill.Assigned owner f r s key)
    (hslots : ∀ g ∈ fields, ¬ g.SharesSlot s.record.layout f)
    (hfree : key.isByValue = true → key ∉ r.record.keys owner fields) :
    key ∉ r.record.keys owner fields := by
  obtain rfl := hf.key_self
  cases hvalue : (s.record.key owner f.slot).isByValue with
  | true => exact hfree hvalue
  | false =>
    intro hmem
    obtain ⟨g, hg, hkey⟩ := List.mem_map.mp hmem
    have hslot : f.slot ≠ g.slot := fun heq => hslots g hg (Or.inl heq.symm)
    obtain ⟨seq, hseq⟩ := hf.sentinel
    obtain ⟨seq', hseq'⟩ := h.sentinel g hg
    rw [← hf.get_other g.slot hslot] at hseq'
    rw [← hf.key_of_ne hslot] at hkey
    exact hslots g hg (Filled.sharesSlot_of_key_eq hseq hseq' hvalue hkey.symm).symm

/-- One more field is filled, in a slot of its own. -/
theorem snoc (h : Exact owner fields r.record r.keys) (hf : Refill.Assigned owner f r s key)
    (hslots : ∀ g ∈ fields, ¬ g.SharesSlot s.record.layout f)
    (hfree : key.isByValue = true → key ∉ r.keys.map (·.1)) :
    Exact owner (fields ++ [f]) s.record (Refill.enter key fields.length s.keys) := by
  have hother (g : FieldMapping) (hg : g ∈ fields) : f.slot ≠ g.slot :=
    fun heq => hslots g hg (Or.inl heq.symm)
  have hsame : s.record.keys owner fields = r.record.keys owner fields :=
    List.map_congr_left fun g hg => hf.key_of_ne (hother g hg)
  have hnew := h.key_not_mem hf hslots (h.map_fst ▸ hfree)
  have hkeys : s.record.keys owner (fields ++ [f]) = r.record.keys owner fields ++ [key] := by
    rw [Record.keys, List.map_append, List.map_singleton, hf.key_self]
    exact congrArg (· ++ [key]) hsame
  constructor
  · rw [hkeys, hf.keys_eq, Refill.enter_of_not_mem (h.map_fst ▸ hnew), List.zipIdx_append,
      ← h.keys_eq]
    simp [Record.keys]
  · rw [hkeys, List.nodup_append]
    refine ⟨h.nodup, List.nodup_singleton key, fun k hk other hother heq => hnew ?_⟩
    rwa [← List.mem_singleton.mp hother, ← heq]
  · intro g hg
    rcases List.mem_append.mp hg with hg | hg
    · rw [hf.get_other g.slot (hother g hg)]
      exact h.sentinel g hg
    · obtain rfl := List.mem_singleton.mp hg
      exact hf.sentinel

end Snoc

theorem of_fill {rest : List FieldMapping} {i : Nat} {seq : UInt32} {r s : Refill}
    (hfill : Refill.fill owner rest i seq r = (s, .ok ())) (hi : i = fields.length)
    (hslots : DistinctSlots r.record.layout (fields ++ rest))
    (h : Exact owner fields r.record r.keys) : Exact owner (fields ++ rest) s.record s.keys := by
  -- on the fields that are still to be filled; the law of those before them is carried along
  induction rest generalizing fields i seq r with
  | nil =>
    obtain ⟨rfl, -⟩ := Prod.mk.inj hfill
    simpa using h
  | cons f rest ih =>
    obtain ⟨settled, last, hf, hfree, hrest⟩ := Refill.fill_cons_eq_ok hfill
    rw [← hf.layout_eq] at hslots
    have hbefore : ∀ g ∈ fields, ¬ g.SharesSlot settled.record.layout f :=
      fun g hg => (List.pairwise_append.mp hslots).2.2 g hg f List.mem_cons_self
    have hnext := h.snoc hf hbefore hfree
    rw [← hi] at hnext
    rw [List.append_cons] at hslots ⊢
    exact ih hrest (by simp [hi]) hslots hnext

end Exact

namespace Registry

variable {g : Registry} {owner : Nat} {fields : List FieldMapping} {record : Record}
  {counter : UInt32}

theorem exact_generate (h : (g.generate owner fields record counter).outcome = .ok ())
    (hslots : DistinctSlots record.layout fields) :
    Exact owner fields (g.generate owner fields record counter).record
      (g.generate owner fields record counter).registry.current := by
  obtain ⟨r, hfill, hg⟩ := generate_of_ok h
  have hall : DistinctSlots record.layout ([] ++ fields) := hslots
  rw [hg]
  exact Exact.of_fill hfill rfl hall (Exact.nil owner record)

end Registry

namespace Alias

theorem column_of_resolve {a : Alias} {arg : Argument} {i : Nat} {f : FieldMapping}
    (h : a.resolve arg = .ok (some i)) (hf : a.mapping.fields[i]? = some f) :
    a.column arg = .ok (a.table.handle (some a.id) f.column) := by
  have hbind (f : Option Nat → Result ColumnRef) : Except.ok (some i) >>= f = f (some i) := rfl
  simp only [column, h, hbind, Option.bind_some, hf]
  rfl

/-- The fields that the alias registers are distinct slots. -/
def HasDistinctSlots (a : Alias) : Prop := DistinctSlots a.record.layout a.mapping.fields

instance (a : Alias) : Decidable a.HasDistinctSlots :=
  inferInstanceAs (Decidable (DistinctSlots _ _))

@[simp] theorem layout_refill (a : Alias) (counter : UInt32) :
    (a.refill counter).1.record.layout = a.record.layout :=
  Registry.layout_generate a.registry a.id a.mapping.fields a.record counter

@[simp] theorem place_refill (a : Alias) (counter : UInt32) (slot : Slot) :
    (a.refill counter).1.place slot = a.place slot := by
  rw [place, place, Record.place, Record.place, layout_refill]
  rfl

theorem HasDistinctSlots.refill {a : Alias} (h : a.HasDistinctSlots) (counter : UInt32) :
    (a.refill counter).1.HasDistinctSlots := by
  rw [HasDistinctSlots, layout_refill]
  exact h

/-- Whatever it held before, a field that has been filled holds one of its sentinels. -/
theorem sentinel_refill {a : Alias} {counter : UInt32}
    (hslots : (a.mapping.fields.map (·.slot)).Nodup) (hok : (a.refill counter).2.2 = .ok ())
    {f : FieldMapping} (hf : f ∈ a.mapping.fields) :
    ∃ seq, f.type.sentinel seq = .ok ((a.refill counter).1.record.get f.slot) := by
  obtain ⟨i, hi⟩ := List.getElem?_of_mem hf
  exact (Registry.filled_generate hok).sentinel i f hi (isLast_of_nodup hslots hi)

/-- Where no slot is registered twice, it is a matter of their places whether the fields are told
apart: no two of them have the same key exactly if they are distinct slots in memory. -/
theorem nodup_keys_refill_iff {a : Alias} {counter : UInt32}
    (hnames : (a.mapping.fields.map (·.slot)).Nodup) (hok : (a.refill counter).2.2 = .ok ()) :
    (a.mapping.fields.map fun f => (a.refill counter).1.key f.slot).Nodup ↔ a.HasDistinctSlots := by
  refine ⟨fun hkeys => ?_, fun hslots => (Registry.exact_generate hok hslots).nodup⟩
  refine ((List.pairwise_map.mp hnames).and (List.pairwise_map.mp hkeys)).imp_of_mem ?_
  rintro f g hf hg ⟨hname, hkey⟩ (hslot | ⟨hplaceF, hplaceG, hanchor⟩)
  · exact hname hslot
  · obtain ⟨seq, hseq⟩ := sentinel_refill hnames hok hf
    obtain ⟨seq', hseq'⟩ := sentinel_refill hnames hok hg
    apply hkey
    rw [key, key, Record.key, Record.key, FieldType.key_of_place hseq hplaceF,
      FieldType.key_of_place hseq' hplaceG, Record.place, Record.place, layout_refill, hanchor]

def soleMember (name : String) : FieldMapping where
  column := { name, fieldName := name, sqlType := .varchar }
  slot := [name]
  type := .enumeration { name := "Sole", members := [{ name := "Only" }] }

/-- Two enumerations with a single member, which take up no room and stand at one place. -/
def soleAlias : Alias where
  id := 1
  model := { id := 0, typeName := "Soles", initial := {}, description := .done }
  mapping :=
    ⟨{ name := "Soles", columns := [(soleMember "left").column, (soleMember "right").column] },
      [soleMember "left", soleMember "right"]⟩
  record := @Record.mk [] ⟨[(["right"], ["left"])]⟩

/-- Both fields denote the second. -/
example :
    let filled := (soleAlias.refill 1).1
    filled.resolve (filled.reference ["left"]) = .ok (some 1) ∧
      filled.resolve (filled.reference ["right"]) = .ok (some 1) := by
  decide

end Alias

end RecordMapper
