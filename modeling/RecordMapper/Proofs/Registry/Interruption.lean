import RecordMapper.Proofs.Registry.History

/-!
# Fillings that fail

A filling that fails has replaced the contents of the fields before the one that cannot be filled,
while the registry still holds the keys of the generation before. Fields recognised by place, and
those that had not been reached, denote their columns as they did. A number that has been replaced
denotes whatever the registry knows its new value as: its own column if the value has come back,
another column if it was the key of that one, and no column at all in most cases.
-/

set_option autoImplicit false

namespace RecordMapper

namespace History

namespace Kept

variable {a : Alias} {h : History}

theorem resolve_eq_some_iff (hk : Kept a h) (slot : Slot) (i : Nat) :
    h.subject.resolve (h.subject.reference slot) = .ok (some i) ↔
      h.latest[i]? = some (h.subject.key slot) := by
  rw [Alias.resolve_reference, Lookup.outcome_eq_some_iff, hk.lookup_eq_current_iff]

theorem resolve_eq_refusal_iff (hk : Kept a h) (slot : Slot) :
    h.subject.resolve (h.subject.reference slot) = Alias.refusal (h.subject.key slot) ↔
      h.subject.key slot ∈ h.former ∧ h.subject.key slot ∉ h.latest := by
  rw [Alias.resolve_reference, Lookup.outcome_eq_refusal_iff, hk.lookup_eq_retired_iff]

theorem resolve_eq_none_iff (hk : Kept a h) (slot : Slot) :
    h.subject.resolve (h.subject.reference slot) = .ok none ↔
      h.subject.key slot ∉ h.former ∧ h.subject.key slot ∉ h.latest := by
  rw [Alias.resolve_reference, Lookup.outcome_eq_none_iff, hk.lookup_eq_miss_iff]

/-- A field recognised by place denotes its own column, however the last filling has ended. -/
theorem resolve_of_place (hk : Kept a h) (hbegun : h.generations ≠ []) {i : Nat}
    {f : FieldMapping} (hf : a.mapping.fields[i]? = some f)
    (hplace : f.type.hasKeyByValue = false) :
    h.subject.resolve (h.subject.reference f.slot) = .ok (some i) := by
  obtain ⟨seq, hseq⟩ := hk.sentinel hbegun f (List.mem_of_getElem? hf)
  have hkey : h.subject.key f.slot = .identity (a.place f.slot) := by
    rw [Alias.key, Record.key, FieldType.key_of_place hseq hplace, ← hk.place_eq]
    rfl
  rw [hk.resolve_eq_some_iff, hkey]
  exact hk.place_latest hbegun hf hplace

/-- A filling that fails has come to a field that it could not fill. What stands behind that field
denotes what it did. -/
theorem exists_refuses (hk : Kept a h) (hslots : a.HasDistinctSlots)
    {counter : UInt32} {e : Error} (hfail : (h.subject.refill counter).2.2 = .error e) :
    let failed := (h.subject.refill counter).1
    ∃ (p : Nat) (f : FieldMapping), a.mapping.fields[p]? = some f ∧ f.Refuses e ∧
      ∀ (j : Nat) (g : FieldMapping), p < j → a.mapping.fields[j]? = some g →
        failed.resolve (failed.reference g.slot) =
          h.subject.resolve (h.subject.reference g.slot) := by
  intro failed
  obtain ⟨r, hfill, hg⟩ := Registry.generate_of_error hfail
  obtain ⟨done, f, left, hfields, hwrites, hrefuses⟩ := Refill.exists_refuses_of_fill hfill
  rw [hk.mapping_eq] at hfields
  refine ⟨done.length, f, by simp [hfields], hrefuses, fun j g hj hg' => ?_⟩
  have hslot : g.slot ∉ (done ++ [f]).map (·.slot) := by
    have hsplit : a.mapping.fields = (done ++ [f]) ++ left := by simp [hfields]
    have hleft : g ∈ left := by
      rw [hsplit, List.getElem?_append_right (by simpa using Nat.succ_le_of_lt hj)] at hg'
      exact List.mem_of_getElem? hg'
    have hnames := hslots.nodup
    rw [hsplit, List.map_append] at hnames
    exact fun hmem =>
      (List.nodup_append.mp hnames).2.2 _ hmem _ (List.mem_map_of_mem hleft) rfl
  have hcontent : failed.record.get g.slot = h.subject.record.get g.slot := by
    have hrecord : failed.record = r.record := congrArg Generation.record hg
    rw [hrecord]
    exact hwrites.get_of_not_mem hslot
  have hregistry : failed.registry = h.subject.registry := congrArg Generation.registry hg
  have hkey : failed.key g.slot = h.subject.key g.slot := by
    change (failed.record.get g.slot).key (failed.place g.slot) = _
    rw [hcontent, h.subject.place_refill counter]
    rfl
  rw [Alias.resolve_reference, Alias.resolve_reference, hregistry, hkey]

end Kept

/-- After a filling that has failed, an alias that has been filled before tells its own columns
exactly as far as this: each field denotes its own column or is refused exactly if its key, as the
field now stands, is the one from the latest generation or one of the generation before that did
not come back. The failure has a field at which it occurred; those behind it denote what they did
before, and so do all fields recognised by place. A field whose key is now the one of another field
denotes the column of the other, and one whose key is of neither generation is taken for a
literal. -/
theorem resolve_interrupted_iff (a : Alias) (counters : List UInt32) (counter : UInt32)
    (hnew : a.registry = {}) (hslots : a.HasDistinctSlots)
    (hbegun : (run a counters).generations ≠ []) {e : Error}
    (hfail : ((run a counters).subject.refill counter).2.2 = .error e) :
    let h := run a counters
    let failed := (h.subject.refill counter).1
    (∀ (i : Nat) (f : FieldMapping), a.mapping.fields[i]? = some f →
      ((failed.resolve (failed.reference f.slot) = .ok (some i) ∨
          failed.resolve (failed.reference f.slot) = Alias.refusal (failed.key f.slot)) ↔
        h.latest[i]? = some (failed.key f.slot) ∨
          failed.key f.slot ∈ h.former ∧ failed.key f.slot ∉ h.latest) ∧
      (∀ j, failed.resolve (failed.reference f.slot) = .ok (some j) ↔
        h.latest[j]? = some (failed.key f.slot)) ∧
      (failed.resolve (failed.reference f.slot) = .ok none ↔
        failed.key f.slot ∉ h.former ∧ failed.key f.slot ∉ h.latest) ∧
      (f.type.hasKeyByValue = false →
        failed.resolve (failed.reference f.slot) = .ok (some i))) ∧
    ∃ (p : Nat) (f : FieldMapping), a.mapping.fields[p]? = some f ∧ f.Refuses e ∧
      ∀ (j : Nat) (g : FieldMapping), p < j → a.mapping.fields[j]? = some g →
        failed.resolve (failed.reference g.slot) =
          h.subject.resolve (h.subject.reference g.slot) := by
  intro h failed
  have hkept : Kept a h := Kept.run hnew hslots counters
  have hk : Kept a ⟨failed, h.generations⟩ := by
    rw [← refill_of_error hfail]
    exact hkept.refill hslots counter
  refine ⟨fun i f hf => ⟨?_, hk.resolve_eq_some_iff f.slot, hk.resolve_eq_none_iff f.slot,
    hk.resolve_of_place hbegun hf⟩, ?_⟩
  · rw [hk.resolve_eq_some_iff, hk.resolve_eq_refusal_iff]
    rfl
  · exact hkept.exists_refuses hslots hfail

/-- The first two fields have been filled anew when the date fails. The one holds what was the key
of the other, and is taken for it; the other holds a number that is of no generation. -/
theorem resolve_interrupted_spot :
    let h := run spotAlias [4]
    let failed := (h.subject.refill 100000261).1
    spotAlias.registry = {} ∧ spotAlias.HasDistinctSlots ∧
      h.generations = [[.int 4, .int 5, .identity (.field 1 ["day"])]] ∧
      (h.subject.refill 100000261).2.2 = .error (.noSentinel "date" .counterOutOfRange) ∧
      failed.resolve (failed.reference ["x"]) = .ok (some 1) ∧
      failed.resolve (failed.reference ["y"]) = .ok none ∧
      failed.resolve (failed.reference ["day"]) = .ok (some 2) := by
  intro h failed
  have hslots : spotAlias.HasDistinctSlots := by decide
  have hgenerations : h.generations = [[.int 4, .int 5, .identity (.field 1 ["day"])]] := by
    decide
  have hfail : (h.subject.refill 100000261).2.2 =
      .error (.noSentinel "date" .counterOutOfRange) := by
    decide
  have hlatest : h.latest = [.int 4, .int 5, .identity (.field 1 ["day"])] :=
    congrArg (·.headD []) hgenerations
  have hformer : h.former = [] := congrArg (·.tail.headD []) hgenerations
  have hkeyX : failed.key ["x"] = .int 5 := by decide
  have hkeyY : failed.key ["y"] = .int 6 := by decide
  have hbegun : h.generations ≠ [] := by simp [hgenerations]
  obtain ⟨hfields, -⟩ :=
    resolve_interrupted_iff spotAlias [4] 100000261 rfl hslots hbegun hfail
  obtain ⟨-, hx, -⟩ := hfields 0 (spotFigure "x") rfl
  obtain ⟨-, -, hy, -⟩ := hfields 1 (spotFigure "y") rfl
  obtain ⟨-, -, -, hday⟩ := hfields 2 spotDay rfl
  refine ⟨rfl, hslots, hgenerations, hfail, (hx 1).mpr ?_, hy.mpr ⟨?_, ?_⟩, hday rfl⟩
  · change h.latest[1]? = some (failed.key ["x"])
    rw [hlatest, hkeyX]
    rfl
  · change failed.key ["y"] ∉ h.former
    simp [hformer]
  · change failed.key ["y"] ∉ h.latest
    rw [hlatest, hkeyY]
    decide

/-- An alias need only fail to be filled anew, and its field is taken for a literal. -/
theorem resolve_interrupted_literal :
    let filled := (spotAlias.refill 4).1
    let failed := (filled.refill 100000000).1
    (spotAlias.refill 4).2.2 = .ok () ∧
      (filled.refill 100000000).2.2 = .error (.noSentinel "date" .counterOutOfRange) ∧
      failed.resolve (failed.reference (spotFigure "x").slot) = .ok none := by
  intro filled failed
  exact ⟨by decide, by decide, by decide⟩

end History

end RecordMapper
