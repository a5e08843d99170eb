import Mathlib.Data.List.Nodup
import RecordMapper.Proofs.Registry.Generation

/-!
# What filling writes

Fields are filled one after the other. A field that cannot be filled ends the work: those before
it have their new sentinels by then, those behind it still have what they had, and no entry is
made for either. Here is said which slots are written, whether the filling succeeds or fails, and
at which field and for which reason it fails.
-/

set_option autoImplicit false

namespace RecordMapper

/-- Why a field cannot be filled: its type has no sentinel for a value of the counter, or all that
were drawn are the keys of earlier fields. -/
inductive FieldMapping.Refuses (f : FieldMapping) : Error → Prop
  | noSentinel {seq : UInt32} {e : Error} : f.type.sentinel seq = .error e → f.Refuses e
  | noDistinctValue : f.Refuses (.noSentinel f.column.fieldName .noDistinctValue)

namespace Refill

/-- From `r` to `s` a slot keeps its content unless one of the fields has put a sentinel there. -/
structure Writes (fields : List FieldMapping) (r s : Record) : Prop where
  layout_eq : s.layout = r.layout
  content : ∀ slot, s.get slot = r.get slot ∨
    ∃ f ∈ fields, f.slot = slot ∧ ∃ seq, f.type.sentinel seq = .ok (s.get slot)

namespace Writes

variable {fields more : List FieldMapping} {r s t : Record}

theorem refl (fields : List FieldMapping) (r : Record) : Writes fields r r :=
  ⟨rfl, fun _ => Or.inl rfl⟩

theorem mono (h : Writes fields r s) (hsub : fields ⊆ more) : Writes more r s := by
  refine ⟨h.layout_eq, fun slot => (h.content slot).imp id ?_⟩
  rintro ⟨f, hf, hwritten⟩
  exact ⟨f, hsub hf, hwritten⟩

theorem trans (hrs : Writes fields r s) (hst : Writes more s t) :
    Writes (fields ++ more) r t := by
  refine ⟨hst.layout_eq.trans hrs.layout_eq, fun slot => ?_⟩
  rcases hst.content slot with hsame | ⟨f, hf, hwritten⟩
  · rw [hsame]
    rcases hrs.content slot with hsame | ⟨f, hf, hwritten⟩
    · exact Or.inl hsame
    · exact Or.inr ⟨f, List.mem_append_left more hf, hwritten⟩
  · exact Or.inr ⟨f, List.mem_append_right fields hf, hwritten⟩

theorem get_of_not_mem (h : Writes fields r s) {slot : Slot}
    (hslot : slot ∉ fields.map (·.slot)) : s.get slot = r.get slot := by
  rcases h.content slot with hsame | ⟨f, hf, rfl, -⟩
  · exact hsame
  · exact absurd (List.mem_map_of_mem hf) hslot

/-- Contents that are sentinels of their fields are replaced by such contents only. -/
theorem sentinels (h : Writes fields r s) (hslots : (fields.map (·.slot)).Nodup)
    (hr : ∀ f ∈ fields, ∃ seq, f.type.sentinel seq = .ok (r.get f.slot)) :
    ∀ f ∈ fields, ∃ seq, f.type.sentinel seq = .ok (s.get f.slot) := by
  intro f hf
  rcases h.content f.slot with hsame | ⟨g, hg, hslot, hwritten⟩
  · rw [hsame]
    exact hr f hf
  · obtain rfl : g = f := List.inj_on_of_nodup_map hslots hg hf hslot
    exact hwritten

end Writes

theorem Assigned.writes {owner : Nat} {f : FieldMapping} {r s : Refill} {key : Key}
    (h : Assigned owner f r s key) : Writes [f] r.record s.record := by
  refine ⟨h.layout_eq, fun slot => ?_⟩
  by_cases hslot : f.slot = slot
  · subst hslot
    exact Or.inr ⟨f, List.mem_singleton_self f, rfl, h.sentinel⟩
  · exact Or.inl (h.get_other slot hslot)

theorem sentinel_of_assign_eq_error {owner : Nat} {f : FieldMapping} {r : Refill} {seq : UInt32}
    {e : Error} (h : r.assign owner f seq = .error e) : f.type.sentinel seq = .error e := by
  unfold assign FieldMapping.setSentinel at h
  cases hv : f.type.sentinel seq with
  | error e' => simpa [hv, Except.map] using h
  | ok v => simp [hv, Except.map] at h

theorem refuses_of_redraw {owner : Nat} {f : FieldMapping} {fuel : Nat} {origin r s : Refill}
    {key : Key} {e : Error} (hr : Assigned owner f origin r key)
    (h : redraw owner f fuel r key = (s, .error e)) :
    Writes [f] origin.record s.record ∧ f.Refuses e := by
  induction fuel generalizing r key with
  | zero =>
    unfold redraw at h
    split at h
    · obtain ⟨rfl, he⟩ := Prod.mk.inj h
      obtain rfl := Except.error.inj he
      exact ⟨hr.writes, .noDistinctValue⟩
    · simp at h
  | succ fuel ih =>
    unfold redraw at h
    split at h
    · dsimp only at h
      split at h
      · next hassign =>
        obtain ⟨rfl, he⟩ := Prod.mk.inj h
        obtain rfl := Except.error.inj he
        exact ⟨hr.writes, .noSentinel (sentinel_of_assign_eq_error hassign)⟩
      · next hassign => exact ih (assigned_of_assign hassign hr.keys_eq hr.layout_eq hr.get_other) h
    · simp at h

/-- A filling that fails has come to one of the fields and has written to none behind it. -/
theorem exists_refuses_of_fill {owner : Nat} {fields : List FieldMapping} {i : Nat} {seq : UInt32}
    {r s : Refill} {e : Error} (h : fill owner fields i seq r = (s, .error e)) :
    ∃ done f left, fields = done ++ f :: left ∧
      Writes (done ++ [f]) r.record s.record ∧ f.Refuses e := by
  induction fields generalizing i seq r with
  | nil => simp [fill] at h
  | cons f rest ih =>
    unfold fill at h
    split at h
    · next hassign =>
      obtain ⟨rfl, he⟩ := Prod.mk.inj h
      obtain rfl := Except.error.inj he
      have hsentinel := sentinel_of_assign_eq_error hassign
      exact ⟨[], f, rest, rfl, .refl [f] r.record, .noSentinel hsentinel⟩
    · next hassign =>
      have hfirst := assigned_of_assign hassign rfl rfl fun _ _ => rfl
      split at h
      · next hredraw =>
        obtain ⟨rfl, he⟩ := Prod.mk.inj h
        obtain rfl := Except.error.inj he
        obtain ⟨hwrites, hrefuses⟩ := refuses_of_redraw hfirst hredraw
        exact ⟨[], f, rest, rfl, hwrites, hrefuses⟩
      · next settled last hredraw =>
        obtain ⟨hf, -⟩ := assigned_of_redraw hfirst hredraw
        obtain ⟨done, g, left, rfl, hwrites, hrefuses⟩ := ih h
        exact ⟨f :: done, g, left, rfl, hf.writes.trans hwrites, hrefuses⟩

/-- Whatever the outcome. -/
theorem writes_of_fill {owner : Nat} {fields : List FieldMapping} {i : Nat} {seq : UInt32}
    {r s : Refill} {outcome : Result Unit} (h : fill owner fields i seq r = (s, outcome)) :
    Writes fields r.record s.record := by
  cases outcome with
  | error e =>
    obtain ⟨done, f, left, rfl, hwrites, -⟩ := exists_refuses_of_fill h
    rw [List.append_cons]
    exact hwrites.mono (List.subset_append_left _ left)
  | ok u =>
    induction fields generalizing i seq r with
    | nil =>
      obtain ⟨rfl, -⟩ := Prod.mk.inj h
      exact .refl [] r.record
    | cons f rest ih =>
      obtain ⟨settled, last, hf, -, hrest⟩ := fill_cons_eq_ok h
      have hleft := ih hrest
      exact hf.writes.trans hleft

end Refill

namespace Registry

variable {g : Registry} {owner : Nat} {fields : List FieldMapping} {record : Record}
  {counter : UInt32} {e : Error}

theorem generate_of_error (h : (g.generate owner fields record counter).outcome = .error e) :
    ∃ r, Refill.fill owner fields 0 counter
        { counter := Sentinel.advance counter fields.length, record } = (r, .error e) ∧
      g.generate owner fields record counter = ⟨g, r.record, r.counter, .error e⟩ := by
  rcases hfill : Refill.fill owner fields 0 counter
    { counter := Sentinel.advance counter fields.length, record } with ⟨r, e' | ⟨⟩⟩
  · obtain rfl : e' = e := by simpa [generate, hfill] using h
    exact ⟨r, rfl, by simp [generate, hfill]⟩
  · simp [generate, hfill] at h

/-- Whatever the outcome, the fields stand where they stood. -/
@[simp] theorem layout_generate (g : Registry) (owner : Nat) (fields : List FieldMapping)
    (record : Record)
    (counter : UInt32) :
    (g.generate owner fields record counter).record.layout = record.layout := by
  cases houtcome : (g.generate owner fields record counter).outcome with
  | error e =>
    obtain ⟨r, hfill, hg⟩ := generate_of_error houtcome
    rw [hg]
    exact (Refill.writes_of_fill hfill).layout_eq
  | ok u =>
    obtain ⟨r, hfill, hg⟩ := generate_of_ok houtcome
    rw [hg]
    exact (Refill.writes_of_fill hfill).layout_eq

end Registry

/-- All that matters of a field when it is filled. -/
def FieldMapping.site (f : FieldMapping) : Slot × FieldType × String :=
  (f.slot, f.type, f.column.fieldName)

namespace Refill
variable {owner : Nat} {f f' : FieldMapping}

theorem assign_congr (h : f.site = f'.site) (r : Refill) (seq : UInt32) :
    r.assign owner f seq = r.assign owner f' seq := by
  obtain ⟨hslot, h⟩ := Prod.mk.inj h
  obtain ⟨htype, -⟩ := Prod.mk.inj h
  simp only [assign, FieldMapping.setSentinel, hslot, htype]

theorem redraw_congr (h : f.site = f'.site) (fuel : Nat) (r : Refill) (key : Key) :
    redraw owner f fuel r key = redraw owner f' fuel r key := by
  have hname : f.column.fieldName = f'.column.fieldName := congrArg (·.2.2) h
  induction fuel generalizing r key with
  | zero => simp only [redraw, hname]
  | succ fuel ih => simp only [redraw, assign_congr h, ih]

theorem fill_congr {fields fields' : List FieldMapping}
    (h : fields.map (·.site) = fields'.map (·.site)) (i : Nat) (seq : UInt32) (r : Refill) :
    fill owner fields i seq r = fill owner fields' i seq r := by
  induction fields generalizing fields' i seq r with
  | nil =>
    obtain rfl := List.map_eq_nil_iff.mp h.symm
    rfl
  | cons f rest ih =>
    cases fields' with
    | nil => cases h
    | cons f' rest' =>
      obtain ⟨hf, hrest⟩ := List.cons.inj h
      simp only [fill, assign_congr hf, redraw_congr hf, ih hrest]

end Refill

theorem Registry.generate_congr {fields fields' : List FieldMapping}
    (h : fields.map (·.site) = fields'.map (·.site)) (g : Registry) (owner : Nat) (record : Record)
    (counter : UInt32) :
    g.generate owner fields record counter = g.generate owner fields' record counter := by
  have hlength : fields.length = fields'.length := by
    simpa using congrArg List.length h
  simp only [generate, Refill.fill_congr h, hlength]

end RecordMapper
