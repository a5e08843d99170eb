import RecordMapper.Proofs.Result
import RecordMapper.Registry

/-!
# What a generation leaves behind

A record that has been filled with sentinels and the keys that were entered on the way belong
together: the key of a field, as its content now stands, leads back to the field. Each step of
filling settles one field and disturbs no other, so the law is carried from field to field.

A slot may be registered more than once, and fields that take up no room may stand at one place.
Of such fields the one that counts is the last.
-/

set_option autoImplicit false

namespace RecordMapper

/-- A content that is not recognised by value is recognised by the place where it stands. -/
theorem FieldValue.key_of_not_isByValue {place : Place} {v : FieldValue}
    (h : (v.key place).isByValue = false) : v.key place = .identity place := by
  have scalar (s : Scalar) (hs : (s.key?.getD (.identity place)).isByValue = false) :
      s.key?.getD (.identity place) = .identity place := by
    cases s <;> first | rfl | cases hs
  cases v with
  | scalar s => exact scalar s h
  | wrapped w s =>
    simp only [key] at h ⊢
    split at h
    · next hw => rw [if_pos hw]; exact scalar s h
    · next hw => rw [if_neg hw]
  | member | absent | present => rfl

theorem FieldValue.place_eq_of_key_eq {place other : Place} {v w : FieldValue}
    (hvalue : (v.key place).isByValue = false) (h : v.key place = w.key other) : place = other := by
  have hv := FieldValue.key_of_not_isByValue hvalue
  rw [h] at hvalue
  have hw := FieldValue.key_of_not_isByValue hvalue
  rw [hv, hw] at h
  injection h

/-- Whether the sentinels of a type are recognised by value. -/
def FieldType.hasKeyByValue : FieldType → Bool
  | scalar type => type.isByValue
  | wrapped w => w.isByValue && w.sentinel.any fun s => s.type.isByValue
  | enumeration _ | optional _ => false

theorem Scalar.isByValue_key (s : Scalar) (place : Place) :
    (s.key?.getD (.identity place)).isByValue = s.type.isByValue := by
  cases s <;> rfl

theorem ScalarType.type_of_sentinel {type : ScalarType} {seq : UInt32} {s : Scalar}
    (h : type.sentinel seq = .ok s) : s.type = type := by
  cases type with
  | date | timestamp =>
    obtain ⟨_, -, rfl⟩ := Result.map_eq_ok_iff.mp h
    rfl
  | _ =>
    obtain rfl := Except.ok.inj h
    rfl

/-- All sentinels of a type are recognised in the same way. -/
theorem FieldType.isByValue_key_of_sentinel {type : FieldType} {seq : UInt32} {v : FieldValue}
    (h : type.sentinel seq = .ok v) (place : Place) :
    (v.key place).isByValue = type.hasKeyByValue := by
  cases type with
  | scalar type =>
    obtain ⟨s, hs, rfl⟩ := Result.map_eq_ok_iff.mp h
    rw [FieldValue.key, Scalar.isByValue_key, ScalarType.type_of_sentinel hs, hasKeyByValue]
  | enumeration e =>
    rw [sentinel] at h
    split at h
    · obtain rfl := Except.ok.inj h
      rfl
    · cases h
  | wrapped w =>
    rw [sentinel] at h
    split at h
    · next s hs =>
      obtain rfl := Except.ok.inj h
      rw [FieldValue.key, hasKeyByValue, hs, Option.any_some]
      cases hvalue : w.isByValue with
      | true => rw [if_pos rfl, Scalar.isByValue_key, Bool.true_and]
      | false => rfl
    · cases h
  | optional type =>
    obtain ⟨inner, -, rfl⟩ := Result.map_eq_ok_iff.mp h
    rfl

theorem FieldType.key_of_place {type : FieldType} {seq : UInt32} {v : FieldValue}
    (h : type.sentinel seq = .ok v) (hplace : type.hasKeyByValue = false) (place : Place) :
    v.key place = .identity place := by
  apply FieldValue.key_of_not_isByValue
  rw [isByValue_key_of_sentinel h, hplace]

namespace Registry

theorem position?_cons (entry : Key × Nat) (rest : List (Key × Nat)) (key : Key) :
    position? (entry :: rest) key = if entry.1 = key then some entry.2 else position? rest key := by
  by_cases h : entry.1 = key <;> simp [position?, h]

@[simp] theorem position?_enter (key wanted : Key) (i : Nat) (keys : List (Key × Nat)) :
    position? (Refill.enter key i keys) wanted =
      if key = wanted then some i else position? keys wanted := by
  induction keys with
  | nil => simp only [Refill.enter, position?_cons]
  | cons entry rest ih =>
    by_cases he : entry.1 = key
    · simp only [Refill.enter, if_pos he, position?_cons]
      by_cases hw : key = wanted
      · simp only [if_pos hw]
      · simp only [if_neg hw, if_neg (he ▸ hw : ¬ entry.1 = wanted)]
    · simp only [Refill.enter, if_neg he, position?_cons, ih]
      by_cases hw : entry.1 = wanted
      · have hne : ¬ key = wanted := fun h => he (hw.trans h.symm)
        simp only [if_pos hw, if_neg hne]
      · simp only [if_neg hw]

theorem mem_enter (key wanted : Key) (i : Nat) (keys : List (Key × Nat)) :
    wanted ∈ (Refill.enter key i keys).map (·.1) ↔ wanted = key ∨ wanted ∈ keys.map (·.1) := by
  induction keys with
  | nil => simp [Refill.enter]
  | cons entry rest ih =>
    by_cases he : entry.1 = key
    · simp [Refill.enter, he]
    · simp only [Refill.enter, if_neg he, List.map_cons, List.mem_cons, ih]
      exact or_left_comm

theorem isSome_position?_iff (keys : List (Key × Nat)) (key : Key) :
    (position? keys key).isSome = true ↔ key ∈ keys.map (·.1) := by
  simp only [position?, Option.isSome_map, List.find?_isSome, decide_eq_true_eq, List.mem_map]

end Registry

namespace Refill

theorem has_iff (r : Refill) (key : Key) : r.has key = true ↔ key ∈ r.keys.map (·.1) := by
  simp only [has, List.any_eq_true, decide_eq_true_eq, List.mem_map]

/-- From `r` to `s` the field `f` has been given a sentinel with this key, and no other field has
been touched. -/
structure Assigned (owner : Nat) (f : FieldMapping) (r s : Refill) (key : Key) : Prop where
  keys_eq : s.keys = r.keys
  layout_eq : s.record.layout = r.record.layout
  get_other : ∀ slot, f.slot ≠ slot → s.record.get slot = r.record.get slot
  key_self : s.record.key owner f.slot = key
  sentinel : ∃ seq, f.type.sentinel seq = .ok (s.record.get f.slot)

namespace Assigned

variable {owner : Nat} {f : FieldMapping} {r s : Refill} {key : Key} {slot : Slot}

theorem place_eq (h : Assigned owner f r s key) (slot : Slot) :
    s.record.place owner slot = r.record.place owner slot := by
  rw [Record.place, Record.place, h.layout_eq]

theorem key_of_ne (h : Assigned owner f r s key) (hslot : f.slot ≠ slot) :
    s.record.key owner slot = r.record.key owner slot := by
  rw [Record.key, Record.key, h.get_other slot hslot, h.place_eq]

end Assigned

theorem assigned_of_assign {owner : Nat} {f : FieldMapping} {origin r s : Refill} {seq : UInt32}
    {key : Key} (h : r.assign owner f seq = .ok (s, key)) (hkeys : r.keys = origin.keys)
    (hlayout : r.record.layout = origin.record.layout)
    (hother : ∀ slot, f.slot ≠ slot → r.record.get slot = origin.record.get slot) :
    Assigned owner f origin s key := by
  obtain ⟨v, hv, rfl, rfl⟩ := assign_eq_ok h
  refine ⟨hkeys, hlayout, fun slot hslot => ?_, rfl, seq, ?_⟩
  · rw [Record.get_set, if_neg hslot]
    exact hother slot hslot
  · rw [hv, Record.get_set, if_pos rfl]

/-- Drawing again keeps everything but the content of the field itself, and ends with a key that
no earlier field has. -/
theorem assigned_of_redraw {owner : Nat} {f : FieldMapping} {fuel : Nat} {origin r s : Refill}
    {key last : Key} (hr : Assigned owner f origin r key)
    (h : redraw owner f fuel r key = (s, .ok last)) :
    Assigned owner f origin s last ∧ (last.isByValue = true → last ∉ origin.keys.map (·.1)) := by
  have settled {r : Refill} {key : Key} (hr : Assigned owner f origin r key)
      (hfree : ¬ (key.isByValue && r.has key) = true)
      (h : (r, (Except.ok key : Result Key)) = (s, .ok last)) :
      Assigned owner f origin s last ∧ (last.isByValue = true → last ∉ origin.keys.map (·.1)) := by
    obtain ⟨rfl, hlast⟩ := Prod.mk.inj h
    obtain rfl := Except.ok.inj hlast
    refine ⟨hr, fun hvalue hmem => hfree ?_⟩
    rw [hvalue, Bool.true_and, has_iff, hr.keys_eq]
    exact hmem
  induction fuel generalizing r key with
  | zero =>
    unfold redraw at h
    split at h
    · simp at h
    · next hfree => exact settled hr hfree h
  | succ fuel ih =>
    unfold redraw at h
    split at h
    · dsimp only at h
      split at h
      · simp at h
      · next next key' hassign =>
        exact ih (assigned_of_assign hassign hr.keys_eq hr.layout_eq hr.get_other) h
    · next hfree => exact settled hr hfree h

/-- A field is filled before those behind it, with a key that no earlier field has. -/
theorem fill_cons_eq_ok {owner : Nat} {f : FieldMapping} {rest : List FieldMapping} {i : Nat}
    {seq : UInt32} {r s : Refill} (h : fill owner (f :: rest) i seq r = (s, .ok ())) :
    ∃ settled last, Assigned owner f r settled last ∧
      (last.isByValue = true → last ∉ r.keys.map (·.1)) ∧
      fill owner rest (i + 1) (seq + 1) { settled with keys := enter last i settled.keys } =
        (s, .ok ()) := by
  unfold fill at h
  split at h
  · simp at h
  · next assigned key hassign =>
    split at h
    · simp at h
    · next settled last hredraw =>
      have hfirst := assigned_of_assign hassign rfl rfl (fun _ _ => rfl)
      obtain ⟨hf, hfree⟩ := assigned_of_redraw hfirst hredraw
      exact ⟨settled, last, hf, hfree, h⟩

end Refill

/-- Both are registered for one slot, or both are recognised by the place where they stand, and it
is the same. -/
def FieldMapping.SharesSlot (layout : Layout) (f g : FieldMapping) : Prop :=
  f.slot = g.slot ∨
    f.type.hasKeyByValue = false ∧ g.type.hasKeyByValue = false ∧
      layout.anchor f.slot = layout.anchor g.slot

instance (layout : Layout) (f g : FieldMapping) : Decidable (f.SharesSlot layout g) :=
  inferInstanceAs (Decidable (_ ∨ _))

theorem FieldMapping.SharesSlot.symm {layout : Layout} {f g : FieldMapping}
    (h : f.SharesSlot layout g) : g.SharesSlot layout f := by
  rcases h with hslot | ⟨hf, hg, hplace⟩
  · exact Or.inl hslot.symm
  · exact Or.inr ⟨hg, hf, hplace.symm⟩

/-- No field behind position `i` has this slot. -/
def IsLast (fields : List FieldMapping) (i : Nat) (slot : Slot) : Prop :=
  ∀ j f, i < j → fields[j]? = some f → f.slot ≠ slot

theorem isLast_of_nodup {fields : List FieldMapping} (h : (fields.map (·.slot)).Nodup) {i : Nat}
    {f : FieldMapping} (hf : fields[i]? = some f) : IsLast fields i f.slot := by
  intro j g hij hg hslot
  obtain ⟨hi, rfl⟩ := List.getElem?_eq_some_iff.mp hf
  obtain ⟨hj, rfl⟩ := List.getElem?_eq_some_iff.mp hg
  exact List.pairwise_iff_getElem.mp (List.pairwise_map.mp h) i j hi hj hij hslot.symm

/-- No field behind position `i` shares the slot of `f`. -/
def Prevails (layout : Layout) (fields : List FieldMapping) (i : Nat) (f : FieldMapping) : Prop :=
  ∀ j g, i < j → fields[j]? = some g → ¬ g.SharesSlot layout f

theorem Prevails.isLast {layout : Layout} {fields : List FieldMapping} {i : Nat} {f : FieldMapping}
    (h : Prevails layout fields i f) : IsLast fields i f.slot :=
  fun j g hj hg hslot => h j g hj hg (Or.inl hslot)

/-- No two of the fields share a slot. -/
def DistinctSlots (layout : Layout) (fields : List FieldMapping) : Prop :=
  fields.Pairwise fun f g => ¬ f.SharesSlot layout g

instance (layout : Layout) (fields : List FieldMapping) : Decidable (DistinctSlots layout fields) :=
  inferInstanceAs (Decidable (List.Pairwise _ fields))

namespace DistinctSlots

variable {layout : Layout} {fields : List FieldMapping}

theorem nodup (h : DistinctSlots layout fields) : (fields.map (·.slot)).Nodup :=
  List.pairwise_map.mpr (h.imp fun hne hslot => hne (Or.inl hslot))

theorem prevails (h : DistinctSlots layout fields) {i : Nat} {f : FieldMapping}
    (hf : fields[i]? = some f) : Prevails layout fields i f := by
  intro j g hij hg hshares
  obtain ⟨hi, rfl⟩ := List.getElem?_eq_some_iff.mp hf
  obtain ⟨hj, rfl⟩ := List.getElem?_eq_some_iff.mp hg
  exact List.pairwise_iff_getElem.mp h i j hi hj hij hshares.symm

end DistinctSlots

/-- A field of a longer list is the one at the end, or it is one of those before it. -/
theorem getElem?_concat_cases {fields : List FieldMapping} {f g : FieldMapping} {i : Nat}
    (h : (fields ++ [f])[i]? = some g) :
    (i = fields.length ∧ g = f) ∨ (i < fields.length ∧ fields[i]? = some g) := by
  rcases Nat.lt_or_ge i fields.length with hi | hi
  · rw [List.getElem?_append_left hi] at h
    exact Or.inr ⟨hi, h⟩
  · rw [List.getElem?_append_right hi, List.getElem?_singleton] at h
    split at h
    · exact Or.inl ⟨by omega, (Option.some.inj h).symm⟩
    · cases h

/-- What holds of all fields behind a position of the longer list. -/
theorem forall_behind_of_concat {fields : List FieldMapping} {f : FieldMapping} {i : Nat}
    {P : FieldMapping → Prop} (h : ∀ j g, i < j → (fields ++ [f])[j]? = some g → P g)
    (hi : i < fields.length) : (∀ j g, i < j → fields[j]? = some g → P g) ∧ P f :=
  ⟨fun j g hj hg => h j g hj (List.getElem?_append_left (List.getElem?_eq_some_iff.mp hg).1 ▸ hg),
    h fields.length f hi List.getElem?_concat_length⟩

/-- How the content of a record and the keys entered for it belong together once the fields have
been filled. -/
structure Filled (owner : Nat) (fields : List FieldMapping) (record : Record)
    (keys : List (Key × Nat)) : Prop where
  position : ∀ i f, fields[i]? = some f → Prevails record.layout fields i f →
    Registry.position? keys (record.key owner f.slot) = some i
  sentinel : ∀ i f, fields[i]? = some f → IsLast fields i f.slot →
    ∃ seq, f.type.sentinel seq = .ok (record.get f.slot)
  /-- Whichever of the registrations of its slot a field comes from. -/
  mem_keys : ∀ f ∈ fields, record.key owner f.slot ∈ keys.map (·.1)
  entered : ∀ f ∈ fields, ∃ seq v, f.type.sentinel seq = .ok v ∧
    v.key (record.place owner f.slot) ∈ keys.map (·.1)
  known : ∀ key ∈ keys.map (·.1), key.isByValue = true ∨
    ∃ f ∈ fields, key = .identity (record.place owner f.slot)

namespace Filled

variable {owner : Nat} {fields : List FieldMapping}

theorem nil (owner : Nat) (record : Record) : Filled owner [] record [] where
  position := by simp
  sentinel := by simp
  mem_keys := by simp
  entered := by simp
  known := by simp

/-- Two sentinels that are recognised by place have one key only where they share the place. -/
theorem sharesSlot_of_key_eq {record : Record} {f g : FieldMapping} {seq seq' : UInt32}
    (hf : f.type.sentinel seq = .ok (record.get f.slot))
    (hg : g.type.sentinel seq' = .ok (record.get g.slot))
    (hplace : (record.key owner f.slot).isByValue = false)
    (heq : record.key owner f.slot = record.key owner g.slot) :
    f.SharesSlot record.layout g := by
  have hplace' : (record.key owner g.slot).isByValue = false := heq ▸ hplace
  refine Or.inr ⟨?_, ?_, ?_⟩
  · rw [← hplace, Record.key, FieldType.isByValue_key_of_sentinel hf]
  · rw [← hplace', Record.key, FieldType.isByValue_key_of_sentinel hg]
  · have hsame := FieldValue.place_eq_of_key_eq hplace heq
    injection hsame

/-- A field that is filled later has another key, unless it shares the slot. -/
theorem key_ne {f g : FieldMapping} {r s : Refill} {key : Key} {i : Nat}
    (h : Filled owner fields r.record r.keys) (hf : Refill.Assigned owner f r s key)
    (hfree : key.isByValue = true → key ∉ r.keys.map (·.1)) (hg : fields[i]? = some g)
    (hlast : IsLast fields i g.slot) (hshares : ¬ f.SharesSlot s.record.layout g) :
    s.record.key owner f.slot ≠ s.record.key owner g.slot := by
  obtain rfl := hf.key_self
  have hslot : f.slot ≠ g.slot := fun heq => hshares (Or.inl heq)
  intro heq
  cases hvalue : (s.record.key owner f.slot).isByValue with
  | true =>
    apply hfree hvalue
    rw [heq, hf.key_of_ne hslot]
    exact h.mem_keys g (List.mem_of_getElem? hg)
  | false =>
    obtain ⟨seq, hseq⟩ := hf.sentinel
    obtain ⟨seq', hseq'⟩ := h.sentinel i g hg hlast
    rw [← hf.get_other g.slot hslot] at hseq'
    exact hshares (sharesSlot_of_key_eq hseq hseq' hvalue heq)

/-- One more field is filled. Its key is new: a key by value has been compared with all earlier
ones, and a key by place is the key of no other slot. -/
theorem snoc {f : FieldMapping} {r s : Refill} {key : Key}
    (h : Filled owner fields r.record r.keys) (hf : Refill.Assigned owner f r s key)
    (hfree : key.isByValue = true → key ∉ r.keys.map (·.1)) :
    Filled owner (fields ++ [f]) s.record (Refill.enter key fields.length s.keys) := by
  obtain rfl := hf.key_self
  have hkept {key : Key} (hmem : key ∈ r.keys.map (·.1)) :
      key ∈ (Refill.enter (s.record.key owner f.slot) fields.length s.keys).map (·.1) := by
    rw [Registry.mem_enter, hf.keys_eq]
    exact Or.inr hmem
  refine ⟨fun i g hg hlast => ?_, fun i g hg hlast => ?_, fun g hg => ?_, fun g hg => ?_,
    fun k hk => ?_⟩
  · rcases getElem?_concat_cases hg with ⟨rfl, rfl⟩ | ⟨hi, hg⟩
    · rw [Registry.position?_enter, if_pos rfl]
    · obtain ⟨hlast, hshares⟩ := forall_behind_of_concat hlast hi
      have hslot : f.slot ≠ g.slot := fun heq => hshares (Or.inl heq)
      have hne := h.key_ne hf hfree hg (Prevails.isLast hlast) hshares
      rw [hf.layout_eq] at hlast
      rw [Registry.position?_enter, if_neg hne, hf.keys_eq, hf.key_of_ne hslot]
      exact h.position i g hg hlast
  · rcases getElem?_concat_cases hg with ⟨rfl, rfl⟩ | ⟨hi, hg⟩
    · exact hf.sentinel
    · obtain ⟨hlast, hslot⟩ := forall_behind_of_concat hlast hi
      rw [hf.get_other g.slot hslot]
      exact h.sentinel i g hg hlast
  · by_cases hslot : f.slot = g.slot
    · rw [← hslot, Registry.mem_enter]
      exact Or.inl rfl
    · rcases List.mem_append.mp hg with hg | hg
      · rw [hf.key_of_ne hslot]
        exact hkept (h.mem_keys g hg)
      · exact absurd (congrArg FieldMapping.slot (List.mem_singleton.mp hg)).symm hslot
  · rcases List.mem_append.mp hg with hg | hg
    · obtain ⟨seq, v, hv, hmem⟩ := h.entered g hg
      rw [hf.place_eq]
      exact ⟨seq, v, hv, hkept hmem⟩
    · obtain rfl := List.mem_singleton.mp hg
      obtain ⟨seq, hseq⟩ := hf.sentinel
      exact ⟨seq, _, hseq, (Registry.mem_enter _ _ _ _).mpr (Or.inl rfl)⟩
  · rcases (Registry.mem_enter _ _ _ _).mp hk with rfl | hk
    · cases hvalue : (s.record.key owner f.slot).isByValue with
      | true => exact Or.inl rfl
      | false => exact Or.inr ⟨f, by simp, FieldValue.key_of_not_isByValue hvalue⟩
    · rw [hf.keys_eq] at hk
      rcases h.known k hk with hvalue | ⟨g, hg, hk⟩
      · exact Or.inl hvalue
      · exact Or.inr ⟨g, List.mem_append_left _ hg, by rw [hk, hf.place_eq]⟩

theorem of_fill {rest : List FieldMapping} {i : Nat} {seq : UInt32} {r s : Refill}
    (hfill : Refill.fill owner rest i seq r = (s, .ok ())) (hi : i = fields.length)
    (h : Filled owner fields r.record r.keys) : Filled owner (fields ++ rest) s.record s.keys := by
  induction rest generalizing fields i seq r with
  | nil =>
    obtain ⟨rfl, -⟩ := Prod.mk.inj hfill
    simpa using h
  | cons f rest ih =>
    obtain ⟨settled, last, hf, hfree, hrest⟩ := Refill.fill_cons_eq_ok hfill
    have hnext := h.snoc hf hfree
    rw [← hi] at hnext
    rw [List.append_cons]
    exact ih hrest (by simp [hi]) hnext

end Filled

namespace Registry

theorem generate_of_ok {g : Registry} {owner : Nat} {fields : List FieldMapping} {record : Record}
    {counter : UInt32} (h : (g.generate owner fields record counter).outcome = .ok ()) :
    ∃ r, Refill.fill owner fields 0 counter
        { counter := Sentinel.advance counter fields.length, record } = (r, .ok ()) ∧
      g.generate owner fields record counter =
        ⟨g.succeed r.keys, r.record, r.counter, .ok ()⟩ := by
  rcases hfill : Refill.fill owner fields 0 counter
    { counter := Sentinel.advance counter fields.length, record } with ⟨r, e | ⟨⟩⟩
  · simp [generate, hfill] at h
  · exact ⟨r, rfl, by simp [generate, hfill]⟩

theorem filled_generate {g : Registry} {owner : Nat} {fields : List FieldMapping} {record : Record}
    {counter : UInt32} (h : (g.generate owner fields record counter).outcome = .ok ()) :
    Filled owner fields (g.generate owner fields record counter).record
      (g.generate owner fields record counter).registry.current := by
  obtain ⟨r, hfill, hg⟩ := generate_of_ok h
  rw [hg]
  simpa [succeed] using Filled.of_fill hfill rfl (Filled.nil owner record)

end Registry

end RecordMapper
