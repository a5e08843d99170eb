import RecordMapper.Drawing
import RecordMapper.Proofs.Registry.Staleness

/-!
# What each value of the counter serves for

A value is named by its place in the order of all draws. Of the values a filling has been given
each serves for one slot at most, whoever else has drawn in between: those of the first draw go to
the fields in order, and a single value replaces what its field had.
-/

set_option autoImplicit false

namespace RecordMapper

namespace Drawing
variable {α β : Type}

/-- Whatever values it is given, each drawn later than those before, the computation ends with
`post`. It owns some of the first `drawn` values, counted from `start` on. -/
def Settles (start : UInt32) (post : (Nat → Prop) → Nat → α → Prop) :
    Drawing α → (own : Nat → Prop) → (drawn : Nat) → Prop
  | done a, own, drawn => post own drawn a
  | draw n next, own, drawn => ∀ k, drawn ≤ k →
    (next (Sentinel.advance start k)).Settles start post (fun j => own j ∨ k ≤ j ∧ j < k + n) (k + n)

section Settles
variable {start : UInt32} {own : Nat → Prop} {drawn : Nat}

theorem Settles.bind {post : (Nat → Prop) → Nat → β → Prop} {d : Drawing α} {f : α → Drawing β}
    (h : d.Settles start (fun own drawn a => (f a).Settles start post own drawn) own drawn) :
    (d.bind f).Settles start post own drawn := by
  induction d generalizing own drawn with
  | done a => exact h
  | draw n next ih => exact fun k hk => ih _ (h k hk)

theorem Settles.imp {post post' : (Nat → Prop) → Nat → α → Prop} {d : Drawing α}
    (h : d.Settles start post own drawn) (himp : ∀ own drawn a, post own drawn a → post' own drawn a) :
    d.Settles start post' own drawn := by
  induction d generalizing own drawn with
  | done a => exact himp _ _ _ h
  | draw n next ih => exact fun k hk => ih _ (h k hk)

/-- Others have drawn in the meantime. -/
theorem Settles.later {post : (Nat → Prop) → α → Prop} {d : Drawing α} {drawn' : Nat}
    (h : d.Settles start (fun own _ => post own) own drawn) (hle : drawn ≤ drawn') :
    d.Settles start (fun own _ => post own) own drawn' := by
  cases d with
  | done a => exact h
  | draw n next => exact fun k hk => h k (Nat.le_trans hle hk)

end Settles

end Drawing

/-- The content of each slot is the sentinel for a value of its own, the `tick slot`-th from
`start` on. -/
structure Tally (start : UInt32) (own : Nat → Prop) (fields : List FieldMapping) (record : Record)
    (tick : Slot → Nat) : Prop where
  owned : ∀ f ∈ fields, own (tick f.slot)
  sentinel : ∀ f ∈ fields, ∃ g ∈ fields, g.slot = f.slot ∧
    g.type.sentinel (Sentinel.advance start (tick f.slot)) = .ok (record.get f.slot)
  injective : ∀ f ∈ fields, ∀ g ∈ fields, tick f.slot = tick g.slot → f.slot = g.slot

/-- As long as fields are left, the values from `next` on up to `stop` are theirs. -/
structure Tally.Open (start : UInt32) (own : Nat → Prop) (drawn next stop : Nat)
    (fields : List FieldMapping) (record : Record) (tick : Slot → Nat) : Prop extends
    Tally start own fields record tick where
  stop_le : stop ≤ drawn
  left : ∀ k, next ≤ k → k < stop → own k
  lt_drawn : ∀ f ∈ fields, tick f.slot < drawn
  spared : ∀ f ∈ fields, tick f.slot < next ∨ stop ≤ tick f.slot

namespace Tally
variable {start : UInt32} {own own' : Nat → Prop} {drawn next stop k : Nat}
  {fields fields' : List FieldMapping} {record : Record} {tick : Slot → Nat} {f : FieldMapping}
  {v : FieldValue}

/-- A field is given the sentinel for a value that serves for no other slot. -/
theorem write (h : Tally start own fields record tick) (hown : ∀ j, own j → own' j) (hk : own' k)
    (hfree : ∀ g ∈ fields, g.slot ≠ f.slot → tick g.slot ≠ k)
    (hfields : ∀ g, g ∈ fields' ↔ g ∈ fields ∨ g = f)
    (hv : f.type.sentinel (Sentinel.advance start k) = .ok v) :
    Tally start own' fields' (record.set f.slot v) (Function.update tick f.slot k) := by
  have hself {g : FieldMapping} (hslot : g.slot = f.slot) :
      Function.update tick f.slot k g.slot = k := by rw [hslot, Function.update_self]
  have hother {g : FieldMapping} (hslot : g.slot ≠ f.slot) :
      Function.update tick f.slot k g.slot = tick g.slot := Function.update_of_ne hslot k tick
  have hmem {g : FieldMapping} (hg : g ∈ fields') (hslot : g.slot ≠ f.slot) : g ∈ fields :=
    ((hfields g).mp hg).resolve_right fun heq => hslot (heq ▸ rfl)
  constructor
  · intro g hg
    by_cases hslot : g.slot = f.slot
    · rw [hself hslot]
      exact hk
    · rw [hother hslot]
      exact hown _ (h.owned g (hmem hg hslot))
  · intro g hg
    by_cases hslot : g.slot = f.slot
    · refine ⟨f, (hfields f).mpr (.inr rfl), hslot.symm, ?_⟩
      rw [hself hslot, Record.get_set, if_pos hslot.symm]
      exact hv
    · obtain ⟨g', hg', hsame, hsentinel⟩ := h.sentinel g (hmem hg hslot)
      refine ⟨g', (hfields g').mpr (.inl hg'), hsame, ?_⟩
      rw [hother hslot, Record.get_set, if_neg fun heq => hslot heq.symm]
      exact hsentinel
  · intro g hg g' hg' htick
    by_cases hslot : g.slot = f.slot <;> by_cases hslot' : g'.slot = f.slot
    · rw [hslot, hslot']
    · rw [hself hslot, hother hslot'] at htick
      exact absurd htick.symm (hfree g' (hmem hg' hslot') hslot')
    · rw [hother hslot, hself hslot'] at htick
      exact absurd htick (hfree g (hmem hg hslot) hslot)
    · rw [hother hslot, hother hslot'] at htick
      exact h.injective g (hmem hg hslot) g' (hmem hg' hslot') htick

namespace Open

theorem update_cases {P : Nat → Prop} (hold : ∀ g ∈ fields, P (tick g.slot)) (hk : P k)
    (hfields : ∀ g, g ∈ fields' ↔ g ∈ fields ∨ g = f) :
    ∀ g ∈ fields', P (Function.update tick f.slot k g.slot) := by
  intro g hg
  by_cases hslot : g.slot = f.slot
  · rw [hslot, Function.update_self]
    exact hk
  · rw [Function.update_of_ne hslot]
    exact hold g (((hfields g).mp hg).resolve_right fun heq => hslot (heq ▸ rfl))

/-- The next field takes the first of the values that are left. -/
theorem take (h : Open start own drawn next stop fields record tick) (hnext : next < stop)
    (hv : f.type.sentinel (Sentinel.advance start next) = .ok v) :
    Open start own drawn (next + 1) stop (fields ++ [f]) (record.set f.slot v)
      (Function.update tick f.slot next) := by
  have hfields (g : FieldMapping) : g ∈ fields ++ [f] ↔ g ∈ fields ∨ g = f := by simp
  refine ⟨h.toTally.write (fun _ => id) (h.left next (Nat.le_refl _) hnext) ?_ hfields hv,
    h.stop_le, fun k hk => h.left k (by omega), ?_, ?_⟩
  · intro g hg _ heq
    have := h.spared g hg
    omega
  · exact update_cases (P := (· < drawn)) h.lt_drawn (Nat.lt_of_lt_of_le hnext h.stop_le) hfields
  · refine update_cases (P := fun k => k < next + 1 ∨ stop ≤ k) ?_ (by omega) hfields
    intro g hg
    have := h.spared g hg
    omega

/-- A field that has been filled takes a value drawn later than all before. -/
theorem redraw (h : Open start own drawn next stop fields record tick) (hf : f ∈ fields)
    (hk : drawn ≤ k) (hv : f.type.sentinel (Sentinel.advance start k) = .ok v) :
    Open start (fun j => own j ∨ k ≤ j ∧ j < k + 1) (k + 1) next stop fields
      (record.set f.slot v) (Function.update tick f.slot k) := by
  have hstop := h.stop_le
  have hfields (g : FieldMapping) : g ∈ fields ↔ g ∈ fields ∨ g = f :=
    ⟨.inl, fun hg => hg.elim id fun heq => heq ▸ hf⟩
  refine ⟨h.toTally.write (fun _ => .inl) (.inr ⟨Nat.le_refl k, Nat.lt_succ_self k⟩) ?_ hfields hv,
    by omega, fun j hj hstop => .inl (h.left j hj hstop), ?_, ?_⟩
  · intro g hg _ heq
    have := h.lt_drawn g hg
    omega
  · refine update_cases (P := fun j => j < k + 1) ?_ (Nat.lt_succ_self k) hfields
    intro g hg
    have := h.lt_drawn g hg
    omega
  · exact update_cases (P := fun j => j < next ∨ stop ≤ j) h.spared (by omega) hfields

theorem later (h : Open start own drawn next stop fields record tick) (hk : drawn ≤ k) :
    Open start (fun j => own j ∨ k ≤ j ∧ j < k + 1) (k + 1) next stop fields record tick where
  owned g hg := .inl (h.owned g hg)
  sentinel := h.sentinel
  injective := h.injective
  stop_le := by have := h.stop_le; omega
  left j hj hstop := .inl (h.left j hj hstop)
  lt_drawn g hg := by have := h.lt_drawn g hg; omega
  spared := h.spared

end Open

end Tally

namespace Refill
variable {owner : Nat} {f : FieldMapping} {start : UInt32} {own : Nat → Prop}
  {drawn next stop : Nat} {fields : List FieldMapping}

theorem settles_redrawing (hf : f ∈ fields) {fuel : Nat} {r : Refill} (key : Key)
    (h : ∃ tick, Tally.Open start own drawn next stop fields r.record tick) :
    (redrawing owner f fuel r key).Settles start (fun own drawn result =>
      ∃ tick, Tally.Open start own drawn next stop fields result.1.record tick) own drawn := by
  induction fuel generalizing r key own drawn with
  | zero =>
    unfold redrawing
    split
    · exact h
    · exact h
  | succ fuel ih =>
    unfold redrawing
    split
    · intro k hk
      dsimp only
      split
      · exact h.imp fun tick htick => htick.later hk
      · next s key' hassign =>
        obtain ⟨v, hv, rfl, -⟩ := assign_eq_ok hassign
        obtain ⟨tick, htick⟩ := h
        exact ih key' ⟨_, htick.redraw hf hk hv⟩
    · exact h

/-- By induction on the fields that are left; the values that are left are the next ones of the
first draw. -/
theorem settles_filling {rest : List FieldMapping} {i : Nat} {r : Refill}
    (hroom : next + rest.length ≤ stop)
    (h : ∃ tick, Tally.Open start own drawn next stop fields r.record tick) :
    (filling owner rest i (Sentinel.advance start next) r).Settles start (fun own _ result =>
      result.2 = .ok () → ∃ tick, Tally start own (fields ++ rest) result.1.record tick)
      own drawn := by
  induction rest generalizing fields next i r own drawn with
  | nil =>
    obtain ⟨tick, htick⟩ := h
    intro _
    rw [List.append_nil]
    exact ⟨tick, htick.toTally⟩
  | cons f rest ih =>
    rw [List.length_cons] at hroom
    unfold filling
    split
    · exact nofun
    · next assigned key hassign =>
      obtain ⟨v, hv, rfl, -⟩ := assign_eq_ok hassign
      obtain ⟨tick, htick⟩ := h
      have htaken := htick.take (f := f) (by omega) hv
      have hnext : Sentinel.advance start next + 1 = Sentinel.advance start (next + 1) :=
        Sentinel.advance_advance start next 1
      refine Drawing.Settles.bind ((settles_redrawing (f := f) (by simp) key ⟨_, htaken⟩).imp ?_)
      rintro own drawn ⟨settled, e | last⟩ hsettled
      · exact nofun
      · dsimp only
        rw [hnext, List.append_cons]
        exact ih (r := { settled with keys := enter last i settled.keys }) (by omega) hsettled

end Refill

/-- Whatever others draw in between, a generation that succeeds has a value of its own for each
slot, among those it has been given. -/
theorem Registry.settles_generating (g : Registry) (owner : Nat) (fields : List FieldMapping)
    (record : Record) (start : UInt32) (own : Nat → Prop) (drawn : Nat) :
    (g.generating owner fields record).Settles start (fun own _ result =>
      result.outcome = .ok () → ∃ tick, Tally start own fields result.record tick) own drawn := by
  intro k hk
  have hopen : Tally.Open start (fun j => own j ∨ k ≤ j ∧ j < k + fields.length)
      (k + fields.length) k (k + fields.length) [] record fun _ => 0 :=
    { owned := by simp
      sentinel := by simp
      injective := by simp
      stop_le := Nat.le_refl _
      left := fun j hj hstop => .inr ⟨hj, hstop⟩
      lt_drawn := by simp
      spared := by simp }
  refine Drawing.Settles.bind ((Refill.settles_filling (Nat.le_refl _) ⟨_, hopen⟩).imp ?_)
  rintro own drawn ⟨r, e | ⟨⟩⟩ hfilled
  · exact nofun
  · exact fun _ => hfilled rfl

end RecordMapper
