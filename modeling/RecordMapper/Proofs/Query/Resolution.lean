import RecordMapper.Proofs.Workspace.Program
import RecordMapper.Query.Basic

/-!
# Which column a field of an alias denotes

The tables of a query are asked in order, and the first that knows the key of an argument answers.
A reference to a field therefore denotes the field's own column exactly if no table before its own
knows the same key. Keys by place are never shared; truth values always are, since all their
sentinels are equal; numbers may be, once the counter has gone round in the narrower type.
-/

set_option autoImplicit false

namespace RecordMapper

namespace Alias

def key (a : Alias) (slot : Slot) : Key := a.record.key a.id slot

/-- The keys entered by the present generation. -/
def keys (a : Alias) : List Key := a.registry.current.map (·.1)

end Alias

theorem Registry.lookup_eq_current_iff (g : Registry) (key : Key) (i : Nat) :
    g.lookup key = .current i ↔ position? g.current key = some i := by
  unfold lookup
  cases h : position? g.current key with
  | some j => simp
  | none =>
    simp only [reduceCtorEq, iff_false]
    split <;> simp

theorem Registry.exists_lookup_eq_current_iff (g : Registry) (key : Key) :
    (∃ i, g.lookup key = .current i) ↔ key ∈ g.current.map (·.1) := by
  simp only [lookup_eq_current_iff, ← isSome_position?_iff, Option.isSome_iff_exists]

namespace Query

/-- The first table that knows the argument, and the column it knows it as. -/
theorem firstCurrent?_eq_some_iff (table : Nat) (lookups : List Lookup) (p : ColumnPosition) :
    firstCurrent? table lookups = some p ↔
      ∃ k, p.table = table + k ∧ lookups[k]? = some (.current p.column) ∧
        ∀ j i, j < k → lookups[j]? ≠ some (.current i) := by
  induction lookups generalizing table with
  | nil => simp [firstCurrent?]
  | cons first rest ih =>
    have skip (hfirst : ∀ i, first ≠ .current i) :
        firstCurrent? (table + 1) rest = some p ↔
          ∃ k, p.table = table + k ∧ (first :: rest)[k]? = some (.current p.column) ∧
            ∀ j i, j < k → (first :: rest)[j]? ≠ some (.current i) := by
      rw [ih]
      constructor
      · rintro ⟨k, htable, hk, hbefore⟩
        refine ⟨k + 1, by omega, by simpa using hk, fun j i hj => ?_⟩
        cases j with
        | zero => simpa using hfirst i
        | succ j => simpa using hbefore j i (by omega)
      · rintro ⟨k, htable, hk, hbefore⟩
        cases k with
        | zero => exact absurd (by simpa using hk) (hfirst p.column)
        | succ k =>
          refine ⟨k, by omega, by simpa using hk, fun j i hj => ?_⟩
          simpa using hbefore (j + 1) i (by omega)
    cases first with
    | current column =>
      constructor
      · intro h
        obtain rfl := Option.some.inj h
        exact ⟨0, rfl, rfl, fun j i hj => absurd hj (Nat.not_lt_zero j)⟩
      · rintro ⟨k, htable, hk, hbefore⟩
        cases k with
        | zero =>
          obtain ⟨t, c⟩ := p
          simp_all [firstCurrent?]
        | succ k => exact absurd rfl (hbefore 0 column (Nat.succ_pos k))
    | retired => exact skip (by simp)
    | miss => exact skip (by simp)

theorem exists_firstCurrent? (table : Nat) {k i : Nat} {lookups : List Lookup}
    (h : lookups[k]? = some (.current i)) :
    ∃ p, firstCurrent? table lookups = some p ∧ p.table ≤ table + k := by
  induction lookups generalizing table k with
  | nil => simp at h
  | cons first rest ih =>
    have skip (hfirst : ∀ i, first ≠ .current i) :
        ∃ p, firstCurrent? (table + 1) rest = some p ∧ p.table ≤ table + k := by
      cases k with
      | zero => exact absurd (by simpa using h) (hfirst i)
      | succ k =>
        obtain ⟨p, hp, hle⟩ := ih (table + 1) (by simpa using h)
        exact ⟨p, hp, by omega⟩
    cases first with
    | current column => exact ⟨⟨table, column⟩, rfl, Nat.le_add_right table k⟩
    | retired => exact skip (by simp)
    | miss => exact skip (by simp)

theorem lookups_reference (q : Query) (a : Alias) (slot : Slot) :
    q.lookups (a.reference slot) = q.sources.map (·.registry.lookup (a.key slot)) := rfl

/-- A present column of some table is the answer, whatever the other tables say. -/
theorem resolve_of_firstCurrent? {q : Query} {arg : Argument} {p : ColumnPosition}
    (h : firstCurrent? 0 (q.lookups arg) = some p) : q.resolve arg = .ok (some p) := by
  simp only [resolve, h]

theorem firstCurrent?_of_resolve {q : Query} {arg : Argument} {p : ColumnPosition}
    (h : q.resolve arg = .ok (some p)) : firstCurrent? 0 (q.lookups arg) = some p := by
  unfold resolve at h
  split at h
  · next hp => rw [hp, Option.some.inj (Except.ok.inj h)]
  · split at h
    · cases h
    · split at h <;> cases h

/-- The query is built over aliases of the program, no two of its tables over the same one, and
all of them filled. -/
structure IsOver (q : Query) (p : Program) : Prop where
  filled : ∀ a ∈ q.sources, (a, true) ∈ p.aliases
  distinct : (q.sources.map (·.id)).Nodup

section References
variable {acts : List Act} {q : Query} {k i : Nat} {a b : Alias} {f : FieldMapping}

theorem IsOver.isFilled (hq : q.IsOver (Program.run acts)) (ha : a ∈ q.sources) : a.IsFilled :=
  (Program.sound_run acts).filled a (hq.filled a ha)

theorem IsOver.id_ne (hq : q.IsOver (Program.run acts)) (ha : q.sources[k]? = some a)
    (hb : b ∈ q.sources.take k) : b.id ≠ a.id := by
  obtain ⟨j, hj, rfl⟩ := List.mem_iff_getElem.mp hb
  obtain ⟨hk, rfl⟩ := List.getElem?_eq_some_iff.mp ha
  have hlt : j < k := by
    rw [List.length_take] at hj
    omega
  have hpair := List.pairwise_iff_getElem.mp hq.distinct j k
    (by simpa using Nat.lt_trans hlt hk) (by simpa using hk) hlt
  simpa [List.getElem_take] using hpair

/-- Only keys by value are shared between aliases. -/
theorem isByValue_of_mem_keys (hb : b.IsFilled) (hid : b.id ≠ a.id) {slot : Slot}
    (h : a.key slot ∈ b.keys) : (a.key slot).isByValue = true := by
  rcases hb.known _ h with hvalue | ⟨g, -, hplace⟩
  · exact hvalue
  · cases hvalue : (a.key slot).isByValue with
    | true => rfl
    | false =>
      rw [Alias.key, Record.key, FieldValue.key_of_not_isByValue hvalue] at hplace
      injection hplace with hplace
      injection hplace with howner
      exact absurd howner.symm hid

/-- All truth values have the same sentinel. -/
theorem key_mem_keys_of_bool (ha : a.IsFilled) (hf : a.mapping.fields[i]? = some f)
    (hlast : Prevails a.record.layout a.mapping.fields i f) (hbool : f.type = .scalar .bool)
    (hb : b.IsFilled)
    {g : FieldMapping} (hg : g ∈ b.mapping.fields) (hg' : g.type = .scalar .bool) :
    a.key f.slot ∈ b.keys := by
  obtain ⟨seq, hseq⟩ := ha.sentinel i f hf hlast.isLast
  obtain ⟨seq', v, hv, hmem⟩ := hb.entered g hg
  rw [hbool] at hseq
  rw [hg'] at hv
  have hcontent := Except.ok.inj hseq
  obtain rfl := Except.ok.inj hv
  rw [Alias.key, Record.key, ← hcontent]
  exact hmem

/-- A reference to a field always denotes a column, of the table of its alias or of one before it.
It denotes the field's own column exactly if no table before has entered the key of the field. No
other table enters a key by place, and every table with a truth value enters the key of all truth
values. -/
theorem resolve_reference_iff (hq : q.IsOver (Program.run acts)) (ha : q.sources[k]? = some a)
    (hf : a.mapping.fields[i]? = some f) (hlast : Prevails a.record.layout a.mapping.fields i f) :
    (q.resolve (a.reference f.slot) = .ok (some ⟨k, i⟩) ↔
      ∀ b ∈ q.sources.take k, a.key f.slot ∉ b.keys) ∧
    (∃ p, q.resolve (a.reference f.slot) = .ok (some p) ∧ p.table ≤ k) ∧
    (∀ b ∈ q.sources.take k, a.key f.slot ∈ b.keys → (a.key f.slot).isByValue = true) ∧
    (f.type = .scalar .bool → ∀ b ∈ q.sources.take k,
      ∀ g ∈ b.mapping.fields, g.type = .scalar .bool → a.key f.slot ∈ b.keys) := by
  have hfilled := hq.isFilled (List.mem_of_getElem? ha)
  have hown : (q.lookups (a.reference f.slot))[k]? = some (.current i) := by
    have hposition : Registry.position? a.registry.current (a.key f.slot) = some i :=
      hfilled.position i f hf hlast
    rw [lookups_reference, List.getElem?_map, ha, Option.map_some,
      (Registry.lookup_eq_current_iff _ _ _).mpr hposition]
  refine ⟨⟨fun h b hb hmem => ?_, fun h => ?_⟩, ?_, fun b hb hmem => ?_,
    fun hbool b hb g hg hg' => ?_⟩
  · obtain ⟨k', htable, -, hbefore⟩ :=
      (firstCurrent?_eq_some_iff 0 _ _).mp (firstCurrent?_of_resolve h)
    obtain rfl : k = k' := by simpa using htable
    obtain ⟨c, hc⟩ := (Registry.exists_lookup_eq_current_iff _ _).mpr hmem
    obtain ⟨j, hj, rfl⟩ := List.mem_iff_getElem.mp hb
    rw [List.length_take] at hj
    apply hbefore j c (by omega)
    rw [lookups_reference, List.getElem?_map, List.getElem?_eq_getElem (by omega)]
    simpa [List.getElem_take] using hc
  · apply resolve_of_firstCurrent?
    refine (firstCurrent?_eq_some_iff 0 _ _).mpr ⟨k, by simp, hown, fun j c hj hknown => ?_⟩
    rw [lookups_reference, List.getElem?_map] at hknown
    obtain ⟨b, hb, hc⟩ := Option.map_eq_some_iff.mp hknown
    apply h b (List.mem_of_getElem? (i := j) (by rw [List.getElem?_take, if_pos hj, hb]))
    exact (Registry.exists_lookup_eq_current_iff _ _).mp ⟨c, hc⟩
  · obtain ⟨p, hp, hle⟩ := exists_firstCurrent? 0 hown
    exact ⟨p, resolve_of_firstCurrent? hp, by omega⟩
  · exact isByValue_of_mem_keys (hq.isFilled (List.mem_of_mem_take hb)) (hq.id_ne ha hb) hmem
  · exact key_mem_keys_of_bool hfilled hf hlast hbool (hq.isFilled (List.mem_of_mem_take hb)) hg hg'

end References

def flagModel (id : Nat) : Model where
  id
  typeName := "Flag"
  initial := {}
  description :=
    .setting (.field { fieldName := "raised", slot := ["raised"], type := .scalar .bool }) <|
    .setting (.field { fieldName := "note", slot := ["note"], type := .scalar .string }) .done

def flagRaised : FieldMapping where
  column := { name := "raised", fieldName := "raised", sqlType := .boolean, isByValue := true }
  slot := ["raised"]
  type := .scalar .bool

def flagNote : FieldMapping where
  column := { name := "note", fieldName := "note", sqlType := .varchar }
  slot := ["note"]
  type := .scalar .string

def flagAlias (model id seq : Nat) : Alias where
  id
  model := flagModel model
  mapping :=
    ⟨{ name := "Flag", columns := [flagRaised.column, flagNote.column] }, [flagRaised, flagNote]⟩
  record :=
    ⟨[(["raised"], .scalar (.bool true)), (["note"], .scalar (.string (Numeral.ofNat seq)))]⟩
  registry :=
    { current := [(.bool true, 0), (.identity (.field id ["note"]), 1)], generation := 1 }

def flagQuery : Query where
  source := flagAlias 0 1 4
  joins := [{ kind := .inner, source := flagAlias 1 2 8 }]

def flagActs : List Act := [.create (flagModel 0), .create (flagModel 1)]

theorem aliases_flagActs :
    (Program.run flagActs).aliases = [(flagAlias 0 1 4, true), (flagAlias 1 2 8, true)] := rfl

theorem flagQuery_isOver : flagQuery.IsOver (Program.run flagActs) where
  filled a ha := by
    rw [aliases_flagActs]
    rcases List.mem_cons.mp ha with rfl | ha
    · exact List.mem_cons_self
    · obtain rfl := List.mem_singleton.mp ha
      exact List.mem_cons_of_mem _ List.mem_cons_self
  distinct := by decide

theorem prevails_flagNote :
    Prevails (flagAlias 1 2 8).record.layout (flagAlias 1 2 8).mapping.fields 1 flagNote := by
  intro j f hj hf
  have hnone : (flagAlias 1 2 8).mapping.fields[j]? = none := List.getElem?_eq_none hj
  rw [hnone] at hf
  cases hf

/-- The text of the second table is told apart from the first table, which also has one. -/
theorem resolve_note_of_second_table :
    flagQuery.IsOver (Program.run flagActs) ∧ flagQuery.sources[1]? = some (flagAlias 1 2 8) ∧
      (flagAlias 1 2 8).mapping.fields[1]? = some flagNote ∧
      Prevails (flagAlias 1 2 8).record.layout (flagAlias 1 2 8).mapping.fields 1 flagNote ∧
      flagQuery.resolve ((flagAlias 1 2 8).reference flagNote.slot) = .ok (some ⟨1, 1⟩) := by
  refine ⟨flagQuery_isOver, rfl, rfl, prevails_flagNote, ?_⟩
  have hsource : flagQuery.sources[1]? = some (flagAlias 1 2 8) := rfl
  have hfield : (flagAlias 1 2 8).mapping.fields[1]? = some flagNote := rfl
  refine (resolve_reference_iff flagQuery_isOver hsource hfield prevails_flagNote).1.mpr ?_
  intro b hb
  obtain rfl := List.mem_singleton.mp hb
  decide

/-- The truth value of the second table is taken for the one of the first. -/
theorem resolve_raised_of_second_table :
    flagQuery.IsOver (Program.run flagActs) ∧ flagQuery.sources[1]? = some (flagAlias 1 2 8) ∧
      (flagAlias 1 2 8).mapping.fields[0]? = some flagRaised ∧
      ((flagAlias 1 2 8).mapping.fields.map (·.slot)).Nodup ∧
      flagQuery.resolve ((flagAlias 1 2 8).reference flagRaised.slot) = .ok (some ⟨0, 0⟩) :=
  ⟨flagQuery_isOver, rfl, rfl, by decide, rfl⟩

end Query

end RecordMapper
