import Mathlib.Data.Int.ModEq
import RecordMapper.Proofs.Registry.History

/-!
# Sentinels of the generation before

A sentinel that is kept while its alias is filled anew is stale. It is refused, unless the new
generation has come upon its key again; then it denotes the column whose key it is now, which may
be another one. Truth values keep their column, as they have one sentinel only. Integers are
refused as long as the counter has not gone round in the narrowest of them since the generation
before began.
-/

set_option autoImplicit false

namespace RecordMapper

@[simp] theorem Sentinel.advance_advance (counter : UInt32) (m n : Nat) :
    advance (advance counter m) n = advance counter (m + n) := by
  simp only [advance, UInt32.ofNat_add, UInt32.add_assoc]

/-- The content of the field is the sentinel for one of the `n` values of the counter from `start`
on. -/
def FieldMapping.DrawnWithin (f : FieldMapping) (r : Record) (start : UInt32) (n : Nat) : Prop :=
  ∃ k < n, f.type.sentinel (Sentinel.advance start k) = .ok (r.get f.slot)

theorem FieldMapping.DrawnWithin.mono {f : FieldMapping} {r : Record} {start : UInt32} {m n : Nat}
    (h : f.DrawnWithin r start m) (hmn : m ≤ n) : f.DrawnWithin r start n := by
  obtain ⟨k, hk, hsentinel⟩ := h
  exact ⟨k, Nat.lt_of_lt_of_le hk hmn, hsentinel⟩

namespace Refill

variable {owner : Nat} {f : FieldMapping} {fields : List FieldMapping} {r s : Refill}
  {start seq : UInt32} {key last : Key} {m n i fuel : Nat}

theorem drawn_of_assign (h : r.assign owner f seq = .ok (s, key)) :
    s.counter = r.counter ∧ f.type.sentinel seq = .ok (s.record.get f.slot) := by
  obtain ⟨v, hv, rfl, -⟩ := assign_eq_ok h
  exact ⟨rfl, by rw [hv, Record.get_set, if_pos rfl]⟩

theorem drawn_of_redraw (hcounter : r.counter = Sentinel.advance start m)
    (hdrawn : f.DrawnWithin r.record start m)
    (h : redraw owner f fuel r key = (s, .ok last)) :
    ∃ n, m ≤ n ∧ n ≤ m + fuel ∧ s.counter = Sentinel.advance start n ∧
      f.DrawnWithin s.record start n := by
  induction fuel generalizing r key m with
  | zero =>
    unfold redraw at h
    split at h
    · simp at h
    · obtain ⟨rfl, -⟩ := Prod.mk.inj h
      exact ⟨m, Nat.le_refl m, Nat.le_refl m, hcounter, hdrawn⟩
  | succ fuel ih =>
    unfold redraw at h
    split at h
    · dsimp only at h
      split at h
      · simp at h
      · next next key' hassign =>
        obtain ⟨hnext, hsentinel⟩ := drawn_of_assign hassign
        have hadvanced : next.counter = Sentinel.advance start (m + 1) := by
          rw [hnext, hcounter, Sentinel.advance_advance]
        rw [hcounter] at hsentinel
        obtain ⟨n, hmn, hn, hlast⟩ := ih hadvanced ⟨m, Nat.lt_succ_self m, hsentinel⟩ h
        exact ⟨n, by omega, by omega, hlast⟩
    · obtain ⟨rfl, -⟩ := Prod.mk.inj h
      exact ⟨m, Nat.le_refl m, by omega, hcounter, hdrawn⟩

/-- The first `m` values from `start` on have been set apart or drawn, and those from the `i`-th
one on are left for the fields. -/
theorem drawn_of_fill (hseq : seq = Sentinel.advance start i) (hblock : i + fields.length ≤ m)
    (hcounter : r.counter = Sentinel.advance start m)
    (hslots : (fields.map (·.slot)).Nodup) {position : Nat}
    (h : fill owner fields position seq r = (s, .ok ())) :
    ∃ n, m ≤ n ∧ n ≤ m + maxRedraws * fields.length ∧ s.counter = Sentinel.advance start n ∧
      ∀ f ∈ fields, f.DrawnWithin s.record start n := by
  induction fields generalizing position seq r i m with
  | nil =>
    obtain ⟨rfl, -⟩ := Prod.mk.inj h
    exact ⟨m, Nat.le_refl m, Nat.le_refl m, hcounter, by simp⟩
  | cons f rest ih =>
    rw [List.map_cons, List.nodup_cons] at hslots
    rw [List.length_cons] at hblock
    unfold fill at h
    split at h
    · simp at h
    · next assigned key hassign =>
      obtain ⟨hassigned, hsentinel⟩ := drawn_of_assign hassign
      rw [hcounter] at hassigned
      rw [hseq] at hsentinel
      split at h
      · simp at h
      · next settled last hredraw =>
        obtain ⟨m', hm, hm', hsettled, hfirst⟩ :=
          drawn_of_redraw hassigned ⟨i, by omega, hsentinel⟩ hredraw
        have hnext : seq + 1 = Sentinel.advance start (i + 1) := by
          rw [hseq]
          exact Sentinel.advance_advance start i 1
        obtain ⟨n, hn, hn', hlast, hrest⟩ :=
          ih (r := { settled with keys := enter last position settled.keys })
            hnext (by omega) hsettled hslots.2 h
        refine ⟨n, by omega, ?_, hlast, fun g hg => ?_⟩
        · rw [List.length_cons, Nat.mul_succ]
          omega
        · rcases List.mem_cons.mp hg with rfl | hg
          · -- the fields behind it have other slots, so its content is still there
            have hsame := (writes_of_fill h).get_of_not_mem hslots.1
            obtain ⟨k, hk, hwritten⟩ := hfirst.mono hn
            exact ⟨k, hk, hsame ▸ hwritten⟩
          · exact hrest g hg

end Refill

theorem Alias.drawn_refill {a : Alias} {counter : UInt32}
    (hok : (a.refill counter).2.2 = .ok ()) (hslots : a.HasDistinctSlots) :
    ∃ n, n ≤ (maxRedraws + 1) * a.mapping.fields.length ∧
      (a.refill counter).2.1 = Sentinel.advance counter n ∧
      ∀ f ∈ a.mapping.fields, f.DrawnWithin (a.refill counter).1.record counter n := by
  obtain ⟨r, hfill, hg⟩ := Registry.generate_of_ok hok
  have hseq : counter = Sentinel.advance counter 0 := by simp [Sentinel.advance]
  obtain ⟨n, -, hn, hcounter, hdrawn⟩ :=
    Refill.drawn_of_fill hseq (Nat.le_of_eq (Nat.zero_add _)) rfl hslots.nodup hfill
  refine ⟨n, ?_, ?_, fun f hf => ?_⟩
  · rw [Nat.succ_mul]
    omega
  · rw [← hcounter]
    exact congrArg Generation.counter hg
  · have hrecord : (a.refill counter).1.record = r.record := congrArg Generation.record hg
    rw [hrecord]
    exact hdrawn f hf

/-- How many bits an integer type has. -/
def ScalarType.integerBits? : ScalarType → Option Nat
  | int8 | uint8 => some 8
  | int16 | uint16 => some 16
  | int32 | uint32 => some 32
  | int64 => some 64
  | _ => none

/-- The key of an integer is the value of the counter up to a multiple of what the type can
hold. -/
theorem ScalarType.key?_of_integer {type : ScalarType} {bits : Nat}
    (h : type.integerBits? = some bits) {seq : UInt32} {s : Scalar}
    (hs : type.sentinel seq = .ok s) :
    ∃ n : Int, s.key? = some (.int n) ∧ (2 : Int) ^ bits ∣ n - seq.toNat := by
  cases type with
  | int8 =>
    cases h
    obtain rfl := Except.ok.inj hs
    exact ⟨_, rfl, Int8.toInt_ofNat' ▸ Int.dvd_bmod_sub_self⟩
  | int16 =>
    cases h
    obtain rfl := Except.ok.inj hs
    exact ⟨_, rfl, Int16.toInt_ofNat' ▸ Int.dvd_bmod_sub_self⟩
  | int32 =>
    cases h
    obtain rfl := Except.ok.inj hs
    exact ⟨_, rfl, Int32.toInt_ofNat' ▸ Int.dvd_bmod_sub_self⟩
  | int64 =>
    cases h
    obtain rfl := Except.ok.inj hs
    exact ⟨_, rfl, Int64.toInt_ofNat' ▸ Int.dvd_bmod_sub_self⟩
  | uint8 =>
    cases h
    obtain rfl := Except.ok.inj hs
    exact ⟨_, rfl, by rw [UInt8.toNat_ofNat']; omega⟩
  | uint16 =>
    cases h
    obtain rfl := Except.ok.inj hs
    exact ⟨_, rfl, by rw [UInt16.toNat_ofNat']; omega⟩
  | uint32 =>
    cases h
    obtain rfl := Except.ok.inj hs
    exact ⟨_, rfl, by simp⟩
  | _ => cases h

theorem Scalar.integerBits?_of_key {s : Scalar} {place : Place} {n : Int}
    (h : s.key?.getD (.identity place) = .int n) : ∃ bits, s.type.integerBits? = some bits := by
  cases s with
  | int8 | int16 | int32 | int64 | uint8 | uint16 | uint32 => exact ⟨_, rfl⟩
  | _ => cases h

namespace FieldType

def integerBits? : FieldType → Option Nat
  | scalar type => type.integerBits?
  | _ => none

/-- A type that is not one of its own wrapped around another. -/
def isBuiltIn : FieldType → Bool
  | wrapped _ => false
  | optional type => type.isBuiltIn
  | scalar _ | enumeration _ => true

theorem key_of_integer {type : FieldType} {bits : Nat} (h : type.integerBits? = some bits)
    {seq : UInt32} {v : FieldValue} (hv : type.sentinel seq = .ok v) (place : Place) :
    ∃ n : Int, v.key place = .int n ∧ (2 : Int) ^ bits ∣ n - seq.toNat := by
  cases type with
  | scalar type =>
    obtain ⟨s, hs, rfl⟩ := Result.map_eq_ok_iff.mp hv
    obtain ⟨n, hkey, hn⟩ := ScalarType.key?_of_integer h hs
    exact ⟨n, by rw [FieldValue.key, hkey, Option.getD_some], hn⟩
  | enumeration | wrapped | optional => cases h

/-- Of the built-in types only integers are recognised as integers. -/
theorem integerBits?_of_key {type : FieldType} (hbuilt : type.isBuiltIn = true) {seq : UInt32}
    {v : FieldValue} (hv : type.sentinel seq = .ok v) {place : Place} {n : Int}
    (hkey : v.key place = .int n) : ∃ bits, type.integerBits? = some bits := by
  cases type with
  | scalar type =>
    obtain ⟨s, hs, rfl⟩ := Result.map_eq_ok_iff.mp hv
    rw [integerBits?, ← ScalarType.type_of_sentinel hs]
    exact Scalar.integerBits?_of_key hkey
  | enumeration e =>
    rw [sentinel] at hv
    split at hv
    · obtain rfl := Except.ok.inj hv
      cases hkey
    · cases hv
  | wrapped w => cases hbuilt
  | optional type =>
    obtain ⟨inner, -, rfl⟩ := Result.map_eq_ok_iff.mp hv
    cases hkey

end FieldType

namespace Sentinel

/-- How far the counter moves from one value to another. -/
def distance (a b : UInt32) : Nat := (b - a).toNat

@[simp] theorem advance_distance (a b : UInt32) : advance a (distance a b) = b := by
  rw [advance, distance, UInt32.ofNat_toNat, UInt32.add_comm, UInt32.sub_add_cancel]

theorem distance_advance (a : UInt32) {n : Nat} (h : n < 2 ^ 32) :
    distance a (advance a n) = n := by
  rw [advance, distance, UInt32.add_comm, UInt32.add_sub_cancel, UInt32.toNat_ofNat',
    Nat.mod_eq_of_lt h]

/-- Values of the counter that are less than `2 ^ bits` apart differ in their last `bits` bits. -/
theorem not_congruent_of_lt (start : UInt32) {k l bits : Nat} (hbits : bits ≤ 32) (hlt : k < l)
    (hnear : l < k + 2 ^ bits) :
    ¬ (2 : Int) ^ bits ∣ (advance start l).toNat - (advance start k).toNat := by
  intro hdvd
  have hword : (2 : Int) ^ bits ∣ 2 ^ 32 := by exact_mod_cast Nat.pow_dvd_pow 2 hbits
  have hmoved (n : Nat) : (2 : Int) ^ bits ∣ (start.toNat + n : Int) - (advance start n).toNat := by
    refine Int.dvd_trans hword ?_
    rw [advance, UInt32.toNat_add, UInt32.toNat_ofNat']
    omega
  have hapart : (2 : Int) ^ bits ∣ ((l - k : Nat) : Int) := by
    have hsum := Int.dvd_add (Int.dvd_sub (hmoved l) (hmoved k)) hdvd
    have heq : ((start.toNat + l : Int) - (advance start l).toNat -
        ((start.toNat + k : Int) - (advance start k).toNat)) +
        ((advance start l).toNat - (advance start k).toNat) = ((l - k : Nat) : Int) := by
      omega
    rwa [heq] at hsum
  have hle : 2 ^ bits ≤ l - k := by
    refine Nat.le_of_dvd (by omega) ?_
    exact_mod_cast hapart
  omega

end Sentinel

/-- In none of the integers among the fields does a value come back within `span` steps of the
counter. -/
def IntegersHold (fields : List FieldMapping) (span : Nat) : Prop :=
  ∃ bits ≤ 32, span ≤ 2 ^ bits ∧
    ∀ f ∈ fields, ∀ n ∈ f.type.integerBits?, bits ≤ n

/-- Two integers that were drawn at different steps within such a span have different keys. -/
theorem FieldType.key_ne_of_drawn {fields : List FieldMapping} {span : Nat}
    (hspan : IntegersHold fields span) {f g : FieldMapping} (hf : f ∈ fields) (hg : g ∈ fields)
    (hbuilt : g.type.isBuiltIn = true) {n : Nat} (hinteger : f.type.integerBits? = some n)
    {start : UInt32} {k l : Nat} (hkl : k < l) (hl : l < span) {v w : FieldValue}
    (hv : f.type.sentinel (Sentinel.advance start k) = .ok v)
    (hw : g.type.sentinel (Sentinel.advance start l) = .ok w) (place other : Place) :
    w.key other ≠ v.key place := by
  intro hkey
  obtain ⟨bits, hbits, hle, hwide⟩ := hspan
  obtain ⟨x, hx, hxdvd⟩ := key_of_integer hinteger hv place
  rw [hx] at hkey
  obtain ⟨m, hm⟩ := integerBits?_of_key hbuilt hw hkey
  obtain ⟨y, hy, hydvd⟩ := key_of_integer hm hw other
  obtain rfl : y = x := by
    rw [hy] at hkey
    injection hkey
  refine Sentinel.not_congruent_of_lt start hbits hkl (by omega) ?_
  have hnarrow {width : Nat} (hwidth : bits ≤ width) : (2 : Int) ^ bits ∣ 2 ^ width := by
    exact_mod_cast Nat.pow_dvd_pow 2 hwidth
  have hf' := Int.dvd_trans (hnarrow (hwide f hf n hinteger)) hxdvd
  have hg' := Int.dvd_trans (hnarrow (hwide g hg m hm)) hydvd
  have heq : y - (Sentinel.advance start k).toNat - (y - (Sentinel.advance start l).toNat) =
      ((Sentinel.advance start l).toNat : Int) - (Sentinel.advance start k).toNat := by omega
  exact heq ▸ Int.dvd_sub hf' hg'

theorem FieldValue.key_eq_of_isByValue {v : FieldValue} {place : Place}
    (h : (v.key place).isByValue = true) (other : Place) : v.key other = v.key place := by
  have scalar (s : Scalar) (hs : (s.key?.getD (.identity place)).isByValue = true) :
      s.key?.getD (.identity other) = s.key?.getD (.identity place) := by
    cases hkey : s.key? with
    | some key => rfl
    | none => rw [hkey] at hs; cases hs
  cases v with
  | scalar s => exact scalar s h
  | wrapped w s =>
    simp only [key] at h ⊢
    split at h
    · next hw => rw [if_pos hw, if_pos hw]; exact scalar s h
    · cases h
  | member | absent | present => cases h

theorem FieldType.hasKeyByValue_of_isBuiltIn {type : FieldType} (hbuilt : type.isBuiltIn = true) :
    type.hasKeyByValue = type.isByValue := by
  cases type with
  | wrapped w => cases hbuilt
  | scalar | enumeration | optional => rfl

namespace Alias

/-- There is one sentinel only for a truth value. -/
theorem key_of_bool {a : Alias} {c₀ c : UInt32} (hslots : a.HasDistinctSlots)
    (hfirst : (a.refill c₀).2.2 = .ok ()) (hsecond : ((a.refill c₀).1.refill c).2.2 = .ok ())
    {f : FieldMapping} (hf : f ∈ a.mapping.fields) (hbool : f.type = .scalar .bool) :
    ((a.refill c₀).1.refill c).1.key f.slot = (a.refill c₀).1.key f.slot := by
  obtain ⟨seq, hseq⟩ := sentinel_refill hslots.nodup hfirst hf
  obtain ⟨seq', hseq'⟩ := sentinel_refill (a := (a.refill c₀).1) hslots.nodup hsecond hf
  rw [hbool] at hseq hseq'
  have hsame : ((a.refill c₀).1.refill c).1.record.get f.slot =
      (a.refill c₀).1.record.get f.slot :=
    (Except.ok.inj hseq').symm.trans (Except.ok.inj hseq)
  change (Record.get _ f.slot).key (place _ f.slot) = (Record.get _ f.slot).key (place _ f.slot)
  rw [hsame, place_refill (a.refill c₀).1]

/-- What the registry says of a key that a field had before the alias was filled anew. -/
theorem lookup_stale {a : Alias} {c₀ c : UInt32}
    (hslots : a.HasDistinctSlots)
    (hfirst : (a.refill c₀).2.2 = .ok ()) (hsecond : ((a.refill c₀).1.refill c).2.2 = .ok ())
    {f : FieldMapping} (hf : f ∈ a.mapping.fields) :
    let old := (a.refill c₀).1
    let new := (old.refill c).1
    (∀ j, new.registry.lookup (old.key f.slot) = .current j ↔
        ∃ g, a.mapping.fields[j]? = some g ∧ new.key g.slot = old.key f.slot) ∧
      ((∀ g ∈ a.mapping.fields, new.key g.slot ≠ old.key f.slot) →
        new.registry.lookup (old.key f.slot) = .retired) := by
  intro old new
  obtain ⟨-, hold, -, -⟩ := Registry.succeeded_generate hfirst hslots
  obtain ⟨hnodup, hcurrent, hretired, -⟩ := Registry.succeeded_generate hsecond (hslots.refill c₀)
  change new.registry.current = new.fieldKeys.zipIdx at hcurrent
  change new.registry.retired = (old.registry.current.map (·.1)).filter (· ∉ new.fieldKeys)
    at hretired
  change old.registry.current = old.fieldKeys.zipIdx at hold
  refine ⟨fun j => ?_, fun hnone => ?_⟩
  · have hposition := Registry.position?_zipIdx_eq_some_iff hnodup 0 j (old.key f.slot)
    rw [Nat.zero_add] at hposition
    rw [Registry.lookup_eq_current_iff, hcurrent]
    refine hposition.trans ?_
    rw [Record.keys, List.getElem?_map, Option.map_eq_some_iff]
    rfl
  · have hnew : old.key f.slot ∉ new.fieldKeys := by
      intro hmem
      obtain ⟨g, hg, hkey⟩ := List.mem_map.mp hmem
      exact hnone g hg hkey
    rw [Registry.lookup_eq_retired_iff, hretired, hcurrent, hold, List.zipIdx_map_fst,
      List.zipIdx_map_fst, List.mem_filter, decide_eq_true_eq]
    exact ⟨⟨List.mem_map_of_mem (f := fun g : FieldMapping => old.key g.slot) hf, hnew⟩, hnew⟩

/-- What a stale sentinel denotes is decided by the keys of the new generation. -/
theorem resolve_stale {a : Alias} {c₀ c : UInt32}
    (hslots : a.HasDistinctSlots)
    (hbuilt : ∀ f ∈ a.mapping.fields, f.type.isBuiltIn = true)
    (hfirst : (a.refill c₀).2.2 = .ok ()) (hsecond : ((a.refill c₀).1.refill c).2.2 = .ok ())
    {f : FieldMapping} (hf : f ∈ a.mapping.fields) (hvalue : f.type.isByValue = true)
    (place : Place) :
    let old := (a.refill c₀).1
    let new := (old.refill c).1
    let stale : Argument := .content (old.record.get f.slot) place
    (∀ j g, a.mapping.fields[j]? = some g → new.key g.slot = old.key f.slot →
        new.resolve stale = .ok (some j)) ∧
      ((∀ g ∈ a.mapping.fields, new.key g.slot ≠ old.key f.slot) →
        new.resolve stale = refusal (old.key f.slot)) := by
  intro old new stale
  obtain ⟨hcurrent, hretired⟩ := lookup_stale hslots hfirst hsecond hf
  have hkey : (old.record.get f.slot).key place = old.key f.slot := by
    obtain ⟨seq, hseq⟩ := sentinel_refill hslots.nodup hfirst hf
    refine FieldValue.key_eq_of_isByValue ?_ place
    rw [FieldType.isByValue_key_of_sentinel hseq,
      FieldType.hasKeyByValue_of_isBuiltIn (hbuilt f hf), hvalue]
  have hresolve : new.resolve stale =
      (new.registry.lookup (old.key f.slot)).outcome (old.key f.slot) := by
    rw [← hkey]
    exact resolve_content new _ place
  refine ⟨fun j g hg hcome => ?_, fun hnone => ?_⟩
  · rw [hresolve, (hcurrent j).mpr ⟨g, hg, hcome⟩, Lookup.outcome]
  · rw [hresolve, hretired hnone, Lookup.outcome]

/-- As long as the counter has not gone round in any integer, no key of the generation before has
come back as the key of an integer. -/
theorem key_ne_of_integersHold {a : Alias} {c₀ c : UInt32}
    (hslots : a.HasDistinctSlots)
    (hbuilt : ∀ f ∈ a.mapping.fields, f.type.isBuiltIn = true)
    (hfew : (maxRedraws + 1) * a.mapping.fields.length < 2 ^ 32)
    (hfirst : (a.refill c₀).2.2 = .ok ()) (hsecond : ((a.refill c₀).1.refill c).2.2 = .ok ())
    (hspan : IntegersHold a.mapping.fields
      (Sentinel.distance c₀ (a.refill c₀).2.1 + Sentinel.distance (a.refill c₀).2.1 c +
        Sentinel.distance c ((a.refill c₀).1.refill c).2.1))
    {f g : FieldMapping} (hf : f ∈ a.mapping.fields) (hg : g ∈ a.mapping.fields) {n : Nat}
    (hinteger : f.type.integerBits? = some n) :
    ((a.refill c₀).1.refill c).1.key g.slot ≠ (a.refill c₀).1.key f.slot := by
  obtain ⟨drawn, hdrawn, hcounter, hold⟩ := drawn_refill hfirst hslots
  obtain ⟨redrawn, hredrawn, hcounter', hnew⟩ := drawn_refill hsecond (hslots.refill c₀)
  have hredrawn' : redrawn ≤ (maxRedraws + 1) * a.mapping.fields.length := hredrawn
  obtain ⟨k, hk, hv⟩ := hold f hf
  obtain ⟨l, hl, hw⟩ := hnew g hg
  -- all that has been drawn, counted from the beginning of the generation before
  have hpaused := Sentinel.advance_distance (a.refill c₀).2.1 c
  rw [hcounter', Sentinel.distance_advance c (by omega)] at hspan
  generalize Sentinel.distance (a.refill c₀).2.1 c = between at hspan hpaused
  rw [hcounter, Sentinel.distance_advance c₀ (by omega)] at hspan
  rw [hcounter, Sentinel.advance_advance] at hpaused
  have hlater : Sentinel.advance c l = Sentinel.advance c₀ (drawn + between + l) := by
    rw [← hpaused, Sentinel.advance_advance]
  rw [hlater] at hw
  exact FieldType.key_ne_of_drawn hspan hf hg (hbuilt g hg) hinteger (by omega) (by omega) hv hw _ _

/-- A value that was the sentinel of a field in the generation before denotes the field whose key it
now is, and is refused if there is none; it is never taken for a literal. So it denotes its own
field or is refused exactly if no other field has come upon its key. Truth values always denote
their own field. Integers are always refused as long as the counter has not gone round in the
narrowest integer since the generation before began. -/
theorem resolve_stale_iff (a : Alias) (c₀ c : UInt32)
    (hslots : a.HasDistinctSlots)
    (hbuilt : ∀ f ∈ a.mapping.fields, f.type.isBuiltIn = true)
    (hfirst : (a.refill c₀).2.2 = .ok ()) (hsecond : ((a.refill c₀).1.refill c).2.2 = .ok ())
    {i : Nat} {f : FieldMapping} (hf : a.mapping.fields[i]? = some f)
    (hvalue : f.type.isByValue = true) (place : Place) :
    let old := (a.refill c₀).1
    let new := (old.refill c).1
    let stale : Argument := .content (old.record.get f.slot) place
    ((new.resolve stale = .ok (some i) ∨ new.resolve stale = refusal (old.key f.slot)) ↔
        ∀ j g, a.mapping.fields[j]? = some g → new.key g.slot = old.key f.slot → j = i) ∧
      (∀ j g, a.mapping.fields[j]? = some g → new.key g.slot = old.key f.slot →
        new.resolve stale = .ok (some j)) ∧
      (f.type = .scalar .bool → new.resolve stale = .ok (some i)) ∧
      ((maxRedraws + 1) * a.mapping.fields.length < 2 ^ 32 →
        IntegersHold a.mapping.fields
          (Sentinel.distance c₀ (a.refill c₀).2.1 + Sentinel.distance (a.refill c₀).2.1 c +
            Sentinel.distance c (old.refill c).2.1) →
        (∃ n, f.type.integerBits? = some n) → new.resolve stale = refusal (old.key f.slot)) := by
  intro old new stale
  have hmem := List.mem_of_getElem? hf
  obtain ⟨hdenotes, hrefused⟩ := resolve_stale hslots hbuilt hfirst hsecond hmem hvalue place
  refine ⟨⟨fun hsafe j g hg hcome => ?_, fun honly => ?_⟩, hdenotes, fun hbool => ?_,
    fun hfew hspan hinteger => ?_⟩
  · rw [hdenotes j g hg hcome] at hsafe
    rcases hsafe with hown | hrefusal
    · exact Option.some.inj (Except.ok.inj hown)
    · cases hrefusal
  · by_cases hcome : ∃ g ∈ a.mapping.fields, new.key g.slot = old.key f.slot
    · obtain ⟨g, hg, hcome⟩ := hcome
      obtain ⟨j, hj⟩ := List.getElem?_of_mem hg
      obtain rfl := honly j g hj hcome
      exact Or.inl (hdenotes j g hj hcome)
    · exact Or.inr (hrefused fun g hg hcome' => hcome ⟨g, hg, hcome'⟩)
  · exact hdenotes i f hf (key_of_bool hslots hfirst hsecond hmem hbool)
  · obtain ⟨n, hn⟩ := hinteger
    exact hrefused fun g hg =>
      key_ne_of_integersHold hslots hbuilt hfew hfirst hsecond hspan hmem hg hn

def dialSwitch : FieldMapping where
  column := { name := "on", fieldName := "on", sqlType := .boolean, isByValue := true }
  slot := ["on"]
  type := .scalar .bool

def dialModel : Model where
  id := 0
  typeName := "Dial"
  initial := {}
  description :=
    .setting (.field { fieldName := "low", slot := ["low"], type := .scalar .int8 }) <|
    .setting (.field { fieldName := "high", slot := ["high"], type := .scalar .int8 }) <|
    .setting (.field { fieldName := "on", slot := ["on"], type := .scalar .bool }) .done

open History (spotFigure)

def dialAlias : Alias where
  id := 1
  model := dialModel
  mapping :=
    ⟨{ name := "Dial", columns :=
        [(spotFigure "low").column, (spotFigure "high").column, dialSwitch.column] },
      [spotFigure "low", spotFigure "high", dialSwitch]⟩
  record := {}

/-- The counter begins anew between the two numbers, and 200 values are drawn by others before the
alias is filled anew: the old numbers are refused, the old truth value keeps its column. -/
theorem resolve_stale_dial :
    let old := (dialAlias.refill 0xFFFFFFFF).1
    let new := (old.refill 202).1
    dialAlias.HasDistinctSlots ∧
      (∀ f ∈ dialAlias.mapping.fields, f.type.isBuiltIn = true) ∧
      (dialAlias.refill 0xFFFFFFFF).2 = (2, .ok ()) ∧ (old.refill 202).2 = (205, .ok ()) ∧
      dialAlias.mapping.fields[0]? = some (spotFigure "low") ∧
      (spotFigure "low").type.isByValue = true ∧
      old.record.get ["low"] = .scalar (.int8 (-1)) ∧
      new.resolve (.content (.scalar (.int8 (-1))) .elsewhere) =
        .error (.unmappedField (.stale "Int(-1)")) ∧
      new.resolve (.content (old.record.get ["on"]) .elsewhere) = .ok (some 2) := by
  intro old new
  have hslots : dialAlias.HasDistinctSlots := by decide
  have hbuilt : ∀ f ∈ dialAlias.mapping.fields, f.type.isBuiltIn = true := by decide
  have hfirst : (dialAlias.refill 0xFFFFFFFF).2 = (2, .ok ()) := by decide
  have hsecond : (old.refill 202).2 = (205, .ok ()) := by decide
  have hlow : old.record.get ["low"] = .scalar (.int8 (-1)) := by decide
  have hstale {i : Nat} {f : FieldMapping} (hf : dialAlias.mapping.fields[i]? = some f)
      (hvalue : f.type.isByValue = true) :=
    resolve_stale_iff dialAlias 0xFFFFFFFF 202 hslots hbuilt (congrArg Prod.snd hfirst)
      (congrArg Prod.snd hsecond) hf hvalue .elsewhere
  have hspan : IntegersHold dialAlias.mapping.fields
      (Sentinel.distance 0xFFFFFFFF (dialAlias.refill 0xFFFFFFFF).2.1 +
        Sentinel.distance (dialAlias.refill 0xFFFFFFFF).2.1 202 +
        Sentinel.distance 202 (old.refill 202).2.1) := by
    rw [hfirst, hsecond]
    exact ⟨8, by decide, by decide, by decide⟩
  refine ⟨hslots, hbuilt, hfirst, hsecond, rfl, rfl, hlow, ?_, ?_⟩
  · have hrefused := (hstale (i := 0) rfl rfl).2.2.2 (by decide) hspan ⟨8, rfl⟩
    change new.resolve (.content (old.record.get ["low"]) .elsewhere) =
      refusal ((old.record.get ["low"]).key (.field 1 ["low"])) at hrefused
    rw [hlow] at hrefused
    exact hrefused.trans (by decide +kernel)
  · exact (hstale (i := 2) rfl rfl).2.2.1 rfl

/-- What was the sentinel of `high` is the one of `low` when the counter has gone round. -/
theorem resolve_stale_other_column :
    let old := (dialAlias.refill 1).1
    let new := (old.refill 258).1
    (dialAlias.refill 1).2.2 = .ok () ∧ (old.refill 258).2.2 = .ok () ∧
      dialAlias.mapping.fields[1]? = some (spotFigure "high") ∧
      new.resolve (.content (old.record.get (spotFigure "high").slot) .elsewhere) =
        .ok (some 0) := by
  intro old new
  exact ⟨by decide, by decide, rfl, by decide⟩

end Alias

end RecordMapper
