import Mathlib.Data.List.Perm.Subperm
import RecordMapper.Proofs.Registry.Staleness

/-!
# How often sentinels are drawn again

A sentinel that has the key of an earlier field is drawn again. Of consecutive values of the
counter, no two among 256 are the same number in any of the integer types, so that an integer is
settled once it has been drawn once more often than integers stand before it. Where a record has
no more than 256 integers the limit of draws is therefore out of reach, whatever the counter and
wherever it begins anew. There are only 256 numbers of eight bits, so 257 fields of that type
cannot all be filled.
-/

set_option autoImplicit false

namespace RecordMapper

namespace Key

def isInteger : Key → Bool
  | int _ => true
  | _ => false

/-- The key of a number that has eight bits. -/
def isNarrow : Key → Bool
  | int n => -128 ≤ n && n < 128
  | _ => false

end Key

namespace FieldType

def isInteger (type : FieldType) : Bool := type.integerBits?.isSome

/-- Integers, truth values and all that is recognised by place. -/
def IsSettled (type : FieldType) : Prop :=
  type.isInteger = true ∨ type = .scalar .bool ∨ type.hasKeyByValue = false

end FieldType

@[simp] theorem Sentinel.advance_zero (counter : UInt32) : advance counter 0 = counter := by
  simp [advance]

namespace Refill

/-- How many values are drawn until the key of the field is settled or the field is given up. -/
def redraws (owner : Nat) (f : FieldMapping) : (fuel : Nat) → Refill → Key → Nat
  | fuel, r, key =>
    if key.isByValue && r.has key then
      match fuel with
      | 0 => 0
      | fuel + 1 =>
        let drawn := { r with counter := Sentinel.advance r.counter 1 }
        match drawn.assign owner f r.counter with
        | .error _ => 1
        | .ok (next, key) => redraws owner f fuel next key + 1
    else 0

/-- The same for each of the fields that the filling comes to, in their order. -/
def redrawsOf (owner : Nat) : List FieldMapping → (i : Nat) → (seq : UInt32) → Refill → List Nat
  | [], _, _, _ => []
  | f :: rest, i, seq, r =>
    match r.assign owner f seq with
    | .error _ => []
    | .ok (assigned, key) =>
      redraws owner f maxRedraws assigned key ::
        match redraw owner f maxRedraws assigned key with
        | (_, .error _) => []
        | (settled, .ok key) =>
          redrawsOf owner rest (i + 1) (seq + 1) { settled with keys := enter key i settled.keys }

variable {owner : Nat} {f : FieldMapping} {fuel : Nat} {r s : Refill} {key : Key} {seq : UInt32}

theorem counter_redraw : (redraw owner f fuel r key).1.counter =
    Sentinel.advance r.counter (redraws owner f fuel r key) := by
  induction fuel generalizing r key with
  | zero =>
    unfold redraw redraws
    split <;> exact (Sentinel.advance_zero _).symm
  | succ fuel ih =>
    unfold redraw redraws
    split
    · dsimp only
      cases hassign : Refill.assign { r with counter := Sentinel.advance r.counter 1 } owner f
        r.counter with
      | error e => rfl
      | ok drawn =>
        obtain ⟨next, key'⟩ := drawn
        have hnext : next.counter = Sentinel.advance r.counter 1 := (drawn_of_assign hassign).1
        dsimp only
        rw [ih, hnext, Sentinel.advance_advance, Nat.add_comm 1]
    · exact (Sentinel.advance_zero _).symm

theorem counter_fill {fields : List FieldMapping} {i : Nat} :
    (fill owner fields i seq r).1.counter =
      Sentinel.advance r.counter (redrawsOf owner fields i seq r).sum := by
  induction fields generalizing i seq r with
  | nil => exact (Sentinel.advance_zero _).symm
  | cons f rest ih =>
    unfold fill redrawsOf
    cases hassign : r.assign owner f seq with
    | error e => exact (Sentinel.advance_zero _).symm
    | ok assigned =>
      obtain ⟨assigned, key⟩ := assigned
      have hcounter := (drawn_of_assign hassign).1
      have hredraw := @counter_redraw owner f maxRedraws assigned key
      dsimp only
      rw [List.sum_cons, ← hcounter, ← Sentinel.advance_advance, ← hredraw]
      rcases redraw owner f maxRedraws assigned key with ⟨settled, e | last⟩
      · exact (Sentinel.advance_zero _).symm
      · exact ih

/-- Every value that is drawn has the key of an earlier field, except for the last one. -/
theorem mem_of_succ_lt_redraws {n : Nat} (h : n + 1 < redraws owner f fuel r key) :
    ∃ v, f.type.sentinel (Sentinel.advance r.counter n) = .ok v ∧
      v.key (r.record.place owner f.slot) ∈ r.keys.map (·.1) := by
  induction fuel generalizing r key n with
  | zero =>
    unfold redraws at h
    split at h <;> exact absurd h (Nat.not_lt_zero _)
  | succ fuel ih =>
    unfold redraws at h
    split at h
    · dsimp only at h
      split at h
      · exact absurd h (by omega)
      · next next key' hassign =>
        have hleft : n < redraws owner f fuel next key' := Nat.lt_of_succ_lt_succ h
        obtain ⟨hcounter, hsentinel⟩ := drawn_of_assign hassign
        have hfirst := assigned_of_assign hassign rfl rfl fun _ _ => rfl
        have hnext : next.keys = r.keys := hfirst.keys_eq
        cases n with
        | zero =>
          -- the value was drawn again, so its key had been entered
          refine ⟨_, (Sentinel.advance_zero r.counter).symm ▸ hsentinel, ?_⟩
          unfold redraws at hleft
          split at hleft
          · next hhas =>
            rw [Bool.and_eq_true, has_iff, hnext] at hhas
            rw [← hfirst.key_self] at hhas
            rw [← hfirst.place_eq]
            exact hhas.2
          · exact absurd hleft (Nat.lt_irrefl 0)
        | succ n =>
          have hlater := ih hleft
          rw [hcounter, hnext, hfirst.place_eq, Sentinel.advance_advance, Nat.add_comm 1] at hlater
          exact hlater
    · exact absurd h (Nat.not_lt_zero _)

/-- A field whose type has all sentinels is given up only when the limit is reached. -/
theorem redraws_eq_of_error (hsentinel : ∀ seq, ∃ v, f.type.sentinel seq = .ok v) {e : Error}
    (h : redraw owner f fuel r key = (s, .error e)) : redraws owner f fuel r key = fuel := by
  induction fuel generalizing r key with
  | zero =>
    unfold redraws
    split <;> rfl
  | succ fuel ih =>
    unfold redraw at h
    unfold redraws
    by_cases hhas : (key.isByValue && r.has key) = true
    · rw [if_pos hhas] at h ⊢
      dsimp only at h ⊢
      cases hassign : Refill.assign { r with counter := Sentinel.advance r.counter 1 } owner f
        r.counter with
      | error e =>
        obtain ⟨v, hv⟩ := hsentinel r.counter
        rw [sentinel_of_assign_eq_error hassign] at hv
        cases hv
      | ok drawn =>
        rw [hassign] at h
        exact congrArg (· + 1) (ih h)
    · rw [if_neg hhas] at h
      cases (Prod.mk.inj h).2

theorem redraw_of_free (h : (key.isByValue && r.has key) = false) :
    redraw owner f fuel r key = (r, .ok key) ∧ redraws owner f fuel r key = 0 := by
  unfold redraw redraws
  rw [h]
  exact ⟨rfl, rfl⟩

theorem map_fst_enter_of_mem {keys : List (Key × Nat)} (h : key ∈ keys.map (·.1)) (i : Nat) :
    (enter key i keys).map (·.1) = keys.map (·.1) := by
  induction keys with
  | nil => exact absurd h List.not_mem_nil
  | cons entry rest ih =>
    by_cases hentry : entry.1 = key
    · simp [enter, hentry]
    · have hrest : key ∈ rest.map (·.1) :=
        (List.mem_cons.mp h).resolve_left fun heq => hentry heq.symm
      simp [enter, hentry, ih hrest]

theorem map_fst_enter_of_not_mem {keys : List (Key × Nat)} (h : key ∉ keys.map (·.1)) (i : Nat) :
    (enter key i keys).map (·.1) = keys.map (·.1) ++ [key] := by
  rw [enter_of_not_mem h, List.map_append, List.map_singleton]

theorem nodup_enter {keys : List (Key × Nat)} (h : (keys.map (·.1)).Nodup) (i : Nat) :
    ((enter key i keys).map (·.1)).Nodup := by
  by_cases hmem : key ∈ keys.map (·.1)
  · rwa [map_fst_enter_of_mem hmem]
  · rw [map_fst_enter_of_not_mem hmem]
    refine List.nodup_append.mpr ⟨h, List.nodup_singleton key, fun k hk other hother heq => ?_⟩
    rw [← List.mem_singleton.mp hother, ← heq] at hmem
    exact hmem hk

theorem countP_enter_le (p : Key → Bool) (key : Key) (keys : List (Key × Nat)) (i : Nat) :
    ((enter key i keys).map (·.1)).countP p ≤ (keys.map (·.1)).countP p + [key].countP p := by
  by_cases hmem : key ∈ keys.map (·.1)
  · rw [map_fst_enter_of_mem hmem]
    exact Nat.le_add_right _ _
  · rw [map_fst_enter_of_not_mem hmem, List.countP_append]

theorem le_countP_enter (p : Key → Bool) (key : Key) (keys : List (Key × Nat)) (i : Nat) :
    (keys.map (·.1)).countP p ≤ ((enter key i keys).map (·.1)).countP p := by
  by_cases hmem : key ∈ keys.map (·.1)
  · rw [map_fst_enter_of_mem hmem]
  · rw [map_fst_enter_of_not_mem hmem, List.countP_append]
    exact Nat.le_add_right _ _

end Refill

namespace FieldType

variable {type : FieldType} {bits : Nat}

theorem le_of_integerBits? (h : type.integerBits? = some bits) : 8 ≤ bits := by
  cases type with
  | scalar type => cases type <;> cases h <;> decide
  | enumeration | wrapped | optional => cases h

theorem isBuiltIn_of_integerBits? (h : type.integerBits? = some bits) : type.isBuiltIn = true := by
  cases type with
  | scalar type => rfl
  | enumeration | wrapped | optional => cases h

theorem exists_sentinel_of_integerBits? (h : type.integerBits? = some bits) (seq : UInt32) :
    ∃ v, type.sentinel seq = .ok v := by
  cases type with
  | scalar type => cases type <;> first | exact ⟨_, rfl⟩ | cases h
  | enumeration | wrapped | optional => cases h

theorem sentinel_bool (seq : UInt32) :
    sentinel seq (.scalar .bool) = .ok (.scalar (.bool true)) := rfl

/-- What a key says of the type of the field. -/
theorem of_key (h : type.IsSettled) {seq : UInt32} {v : FieldValue}
    (hv : type.sentinel seq = .ok v) (place : Place) :
    ((v.key place).isInteger = true → type.isInteger = true) ∧
      (v.key place = .bool true → type = .scalar .bool) := by
  rcases h with hinteger | rfl | hplace
  · obtain ⟨bits, hbits⟩ := Option.isSome_iff_exists.mp hinteger
    obtain ⟨n, hkey, -⟩ := key_of_integer hbits hv place
    exact ⟨fun _ => hinteger, fun hbool => by rw [hkey] at hbool; cases hbool⟩
  · obtain rfl := Except.ok.inj ((sentinel_bool seq).symm.trans hv)
    exact ⟨nofun, fun _ => rfl⟩
  · have hvalue := isByValue_key_of_sentinel hv place
    rw [hplace] at hvalue
    rw [FieldValue.key_of_not_isByValue hvalue]
    exact ⟨nofun, nofun⟩

/-- Of the keys of integers that are made from up to 256 consecutive values of the counter no two
are the same, so there are as many of them. -/
theorem le_countP_isInteger {f : FieldMapping} (hbits : f.type.integerBits? = some bits)
    {start : UInt32} {place : Place} {keys : List Key} {n : Nat} (hn : n ≤ 256)
    (hdrawn : ∀ k < n, ∃ v, f.type.sentinel (Sentinel.advance start k) = .ok v ∧
      v.key place ∈ keys) : n ≤ keys.countP Key.isInteger := by
  choose! v hv hmem using hdrawn
  have hspan : IntegersHold [f] 256 := by
    refine ⟨8, by decide, by decide, fun g _ m hm => ?_⟩
    exact le_of_integerBits? (Option.mem_def.mp hm)
  have hne {k l : Nat} (hkl : k < l) (hl : l < n) : (v l).key place ≠ (v k).key place :=
    key_ne_of_drawn hspan (List.mem_singleton_self f) (List.mem_singleton_self f)
      (isBuiltIn_of_integerBits? hbits) hbits hkl (Nat.lt_of_lt_of_le hl hn)
      (hv k (Nat.lt_trans hkl hl)) (hv l hl) place place
  have hnodup : ((List.range n).map fun k => (v k).key place).Nodup := by
    refine List.Nodup.map_on (fun k hk l hl heq => ?_) List.nodup_range
    rcases Nat.lt_trichotomy k l with hkl | rfl | hlk
    · exact absurd heq.symm (hne hkl (List.mem_range.mp hl))
    · rfl
    · exact absurd heq (hne hlk (List.mem_range.mp hk))
  have hsubset : ((List.range n).map fun k => (v k).key place) ⊆ keys.filter Key.isInteger := by
    intro key hkey
    obtain ⟨k, hk, rfl⟩ := List.mem_map.mp hkey
    have hk := List.mem_range.mp hk
    obtain ⟨m, hm, -⟩ := key_of_integer hbits (hv k hk) place
    exact List.mem_filter.mpr ⟨hmem k hk, by rw [hm]; rfl⟩
  have hle := (hnodup.subperm hsubset).length_le
  rwa [List.length_map, List.length_range, ← List.countP_eq_length_filter] at hle

end FieldType

namespace Refill

/-- There is room for the keys of these fields beside the ones that have been entered. -/
structure Room (fields : List FieldMapping) (keys : List Key) : Prop where
  integers : keys.countP Key.isInteger + fields.countP (·.type.isInteger) ≤ 256
  booleans : keys.countP (· = .bool true) + fields.countP (·.type = .scalar .bool) ≤ 1

variable {owner : Nat} {f : FieldMapping} {rest : List FieldMapping} {r settled : Refill}
  {key last : Key} {seq : UInt32}

/-- A field takes up no more than the room it is counted for. -/
theorem Room.enter (h : Room (f :: rest) (r.keys.map (·.1))) (hf : f.type.IsSettled)
    (hsettled : Assigned owner f r settled last) (i : Nat) :
    Room rest ((Refill.enter last i settled.keys).map (·.1)) := by
  obtain ⟨seq, hseq⟩ := hsettled.sentinel
  obtain ⟨hinteger, hbool⟩ := FieldType.of_key hf hseq (settled.record.place owner f.slot)
  rw [← Record.key, hsettled.key_self] at hinteger hbool
  obtain ⟨hintegers, hbooleans⟩ := h
  rw [List.countP_cons] at hintegers hbooleans
  rw [hsettled.keys_eq]
  have hkeys := countP_enter_le Key.isInteger last r.keys i
  have hkeys' := countP_enter_le (· = .bool true) last r.keys i
  rw [List.countP_singleton] at hkeys hkeys'
  constructor
  · by_cases hlast : last.isInteger = true
    · rw [if_pos (hinteger hlast)] at hintegers
      rw [if_pos hlast] at hkeys
      omega
    · rw [if_neg hlast] at hkeys
      omega
  · by_cases hlast : last = .bool true
    · rw [if_pos (decide_eq_true (hbool hlast))] at hbooleans
      rw [if_pos (decide_eq_true hlast)] at hkeys'
      omega
    · rw [if_neg (by simpa using hlast)] at hkeys'
      omega

/-- A field is given a key after 256 draws at most. -/
theorem Room.settles (h : Room (f :: rest) (r.keys.map (·.1))) (hf : f.type.IsSettled)
    {assigned : Refill} (hassign : r.assign owner f seq = .ok (assigned, key)) :
    redraws owner f maxRedraws assigned key ≤ 256 ∧
      ∃ settled last, redraw owner f maxRedraws assigned key = (settled, .ok last) := by
  have hfirst := assigned_of_assign hassign rfl rfl fun _ _ => rfl
  have hsentinel := (drawn_of_assign hassign).2
  have hkey : (assigned.record.get f.slot).key (assigned.record.place owner f.slot) = key :=
    hfirst.key_self
  have free (hfree : (key.isByValue && assigned.has key) = false) :
      redraws owner f maxRedraws assigned key ≤ 256 ∧
        ∃ settled last, redraw owner f maxRedraws assigned key = (settled, .ok last) := by
    have hredraw : redraw owner f maxRedraws assigned key = (assigned, .ok key) ∧
        redraws owner f maxRedraws assigned key = 0 := redraw_of_free hfree
    exact ⟨by rw [hredraw.2]; decide, assigned, key, hredraw.1⟩
  obtain ⟨hintegers, hbooleans⟩ := h
  rw [List.countP_cons] at hintegers hbooleans
  rw [← hfirst.keys_eq] at hintegers hbooleans
  rcases hf with hinteger | hbool | hplace
  · obtain ⟨bits, hbits⟩ := Option.isSome_iff_exists.mp hinteger
    rw [if_pos hinteger] at hintegers
    have hle : redraws owner f maxRedraws assigned key ≤ 256 := by
      by_contra hmany
      -- 256 draws that came upon keys of integers, which is one more than there are
      have hall := FieldType.le_countP_isInteger hbits (Nat.le_refl 256) fun k hk =>
        have hdrawn : k + 1 < redraws owner f maxRedraws assigned key := by omega
        mem_of_succ_lt_redraws hdrawn
      omega
    refine ⟨hle, ?_⟩
    rcases hredraw : redraw owner f maxRedraws assigned key with ⟨settled, e | last⟩
    · have hlimit := redraws_eq_of_error (FieldType.exists_sentinel_of_integerBits? hbits) hredraw
      rw [hlimit] at hle
      exact absurd hle (by decide)
    · exact ⟨settled, last, rfl⟩
  · rw [if_pos (decide_eq_true hbool)] at hbooleans
    rw [hbool, FieldType.sentinel_bool] at hsentinel
    rw [← Except.ok.inj hsentinel] at hkey
    subst hkey
    apply free
    rw [Bool.and_eq_false_iff, Bool.eq_false_iff, Bool.eq_false_iff]
    refine Or.inr fun hhas => ?_
    have hpos : 0 < (assigned.keys.map (·.1)).countP (· = .bool true) :=
      List.countP_pos_iff.mpr ⟨_, (has_iff assigned _).mp hhas, decide_eq_true rfl⟩
    omega
  · apply free
    rw [← hkey, FieldType.isByValue_key_of_sentinel hsentinel, hplace, Bool.false_and]

/-- By induction on the fields that are left. -/
theorem Room.fill (owner : Nat) {fields : List FieldMapping} {i : Nat}
    (h : Room fields (r.keys.map (·.1))) (hsettled : ∀ f ∈ fields, f.type.IsSettled)
    (hsentinel : ∀ (k : Nat) (f : FieldMapping), fields[k]? = some f →
      ∃ v, f.type.sentinel (Sentinel.advance seq k) = .ok v) :
    (Refill.fill owner fields i seq r).2 = .ok () ∧
      (redrawsOf owner fields i seq r).length = fields.length ∧
      ∀ n ∈ redrawsOf owner fields i seq r, n ≤ 256 := by
  induction fields generalizing i seq r with
  | nil => exact ⟨rfl, rfl, by simp [redrawsOf]⟩
  | cons f rest ih =>
    have hf := hsettled f List.mem_cons_self
    obtain ⟨v, hv⟩ := hsentinel 0 f rfl
    rw [Sentinel.advance_zero] at hv
    have hassign : r.assign owner f seq = .ok ({ r with record := r.record.set f.slot v },
        (r.record.set f.slot v).key owner f.slot) := by
      simp only [assign, FieldMapping.setSentinel, hv]
      rfl
    obtain ⟨hle, settled, last, hredraw⟩ := h.settles hf hassign
    have hfirst := assigned_of_assign hassign rfl rfl fun _ _ => rfl
    have hassigned := (assigned_of_redraw hfirst hredraw).1
    have hnext : ∀ (k : Nat) (g : FieldMapping), rest[k]? = some g →
        ∃ v, g.type.sentinel (Sentinel.advance (seq + 1) k) = .ok v := by
      intro k g hg
      have hlater := hsentinel (k + 1) g hg
      rwa [Nat.add_comm k 1, ← Sentinel.advance_advance] at hlater
    obtain ⟨hok, hlength, hrest⟩ :=
      ih (r := { settled with keys := Refill.enter last i settled.keys })
      (i := i + 1) (h.enter hf hassigned i)
      (fun g hg => hsettled g (List.mem_cons_of_mem f hg)) hnext
    unfold Refill.fill redrawsOf
    simp only [hassign, hredraw]
    refine ⟨hok, by rw [List.length_cons, hlength, List.length_cons], fun n hn => ?_⟩
    rcases List.mem_cons.mp hn with rfl | hn
    · exact hle
    · exact hrest n hn

theorem isNarrow_key {type : FieldType} (h : type = .scalar .int8) {v : FieldValue}
    (hv : type.sentinel seq = .ok v) (place : Place) :
    (v.key place).isNarrow = true ∧ (v.key place).isByValue = true := by
  subst h
  obtain rfl : FieldValue.scalar (.int8 (Int8.ofNat seq.toNat)) = v := Except.ok.inj hv
  refine ⟨?_, rfl⟩
  have hlow := Int8.le_toInt (Int8.ofNat seq.toNat)
  have hhigh := Int8.toInt_lt (Int8.ofNat seq.toNat)
  change ((-128 : Int) ≤ (Int8.ofNat seq.toNat).toInt && (Int8.ofNat seq.toNat).toInt < 128) = true
  rw [Bool.and_eq_true, decide_eq_true_eq, decide_eq_true_eq]
  exact ⟨hlow, hhigh⟩

/-- There are 256 such numbers. -/
theorem countP_isNarrow_le {keys : List Key} (h : keys.Nodup) : keys.countP Key.isNarrow ≤ 256 := by
  have hsubset : keys.filter Key.isNarrow ⊆
      (List.range 256).map fun k : Nat => Key.int (k - 128) := by
    intro key hkey
    obtain ⟨-, hnarrow⟩ := List.mem_filter.mp hkey
    cases key with
    | int n =>
      rw [Key.isNarrow, Bool.and_eq_true, decide_eq_true_eq, decide_eq_true_eq] at hnarrow
      refine List.mem_map.mpr ⟨(n + 128).toNat, List.mem_range.mpr (by omega), ?_⟩
      exact congrArg Key.int (by omega)
    | identity | float | bool => cases hnarrow
  have hle := ((h.filter _).subperm hsubset).length_le
  rwa [List.length_map, List.length_range, ← List.countP_eq_length_filter] at hle

/-- Each of the fields of eight bits has a number of its own. -/
theorem countP_isNarrow_fill {fields : List FieldMapping} {i : Nat} {s : Refill}
    (hfill : fill owner fields i seq r = (s, .ok ())) (hnodup : (r.keys.map (·.1)).Nodup) :
    (s.keys.map (·.1)).Nodup ∧
      (r.keys.map (·.1)).countP Key.isNarrow + fields.countP (·.type = .scalar .int8) ≤
        (s.keys.map (·.1)).countP Key.isNarrow := by
  induction fields generalizing i seq r with
  | nil =>
    obtain ⟨rfl, -⟩ := Prod.mk.inj hfill
    exact ⟨hnodup, Nat.le_refl _⟩
  | cons f rest ih =>
    obtain ⟨settled, last, hf, hfree, hrest⟩ := fill_cons_eq_ok hfill
    rw [← hf.keys_eq] at hnodup
    obtain ⟨hlast, hle⟩ := ih hrest (nodup_enter hnodup i)
    refine ⟨hlast, Nat.le_trans ?_ hle⟩
    rw [List.countP_cons, ← hf.keys_eq]
    dsimp only
    by_cases hnarrow : f.type = .scalar .int8
    · obtain ⟨seq, hseq⟩ := hf.sentinel
      obtain ⟨hkey, hvalue⟩ := isNarrow_key hnarrow hseq (settled.record.place owner f.slot)
      rw [← Record.key, hf.key_self] at hkey hvalue
      have hnew := hfree hvalue
      rw [← hf.keys_eq] at hnew
      rw [if_pos (decide_eq_true hnarrow), map_fst_enter_of_not_mem hnew, List.countP_append,
        List.countP_singleton, if_pos hkey]
      omega
    · rw [if_neg (by simpa using hnarrow)]
      have hkept := le_countP_enter Key.isNarrow last settled.keys i
      omega

end Refill

theorem ScalarType.exists_of_sentinel_eq_error {type : ScalarType} {seq : UInt32} {e : Error}
    (h : type.sentinel seq = .error e) : ∃ subject fault, e = .noSentinel subject fault := by
  cases type with
  | date =>
    rw [sentinel, Sentinel.dateFor] at h
    split at h
    · cases h
    · exact ⟨_, _, (Except.error.inj h).symm⟩
  | timestamp =>
    rw [sentinel, Sentinel.timestampFor] at h
    split at h
    · cases h
    · exact ⟨_, _, (Except.error.inj h).symm⟩
  | _ => cases h

theorem FieldType.exists_of_sentinel_eq_error {type : FieldType} {seq : UInt32} {e : Error}
    (h : type.sentinel seq = .error e) : ∃ subject fault, e = .noSentinel subject fault := by
  induction type with
  | scalar type =>
    rw [sentinel] at h
    cases hs : type.sentinel seq with
    | ok s =>
      rw [hs] at h
      cases h
    | error e' =>
      rw [hs] at h
      obtain rfl : e' = e := Except.error.inj h
      exact ScalarType.exists_of_sentinel_eq_error hs
  | enumeration e' =>
    rw [sentinel] at h
    split at h
    · cases h
    · exact ⟨_, _, (Except.error.inj h).symm⟩
  | wrapped w =>
    rw [sentinel] at h
    split at h
    · cases h
    · exact ⟨_, _, (Except.error.inj h).symm⟩
  | optional type ih =>
    rw [sentinel] at h
    cases hv : type.sentinel seq with
    | ok v =>
      rw [hv] at h
      cases h
    | error e' =>
      rw [hv] at h
      obtain rfl : e' = e := Except.error.inj h
      exact ih hv

namespace Registry

/-- How often a sentinel is drawn again, for each of the fields that the generation comes to. -/
def redraws (owner : Nat) (fields : List FieldMapping) (record : Record) (counter : UInt32) :
    List Nat :=
  Refill.redrawsOf owner fields 0 counter
    { counter := Sentinel.advance counter fields.length, record }

/-- The fields recognised by value are 256 integers at most, of any width, and one truth value at
most. The others are recognised by place and have sentinels where the counter comes to them. -/
structure Moderate (fields : List FieldMapping) (counter : UInt32) : Prop where
  integers : fields.countP (·.type.isInteger) ≤ 256
  booleans : fields.countP (·.type = .scalar .bool) ≤ 1
  others : ∀ (i : Nat) (f : FieldMapping), fields[i]? = some f → f.type.isInteger = false →
    f.type ≠ .scalar .bool →
      f.type.hasKeyByValue = false ∧
        ∃ v, f.type.sentinel (Sentinel.advance counter i) = .ok v

theorem Moderate.exists_sentinel {fields : List FieldMapping} {counter : UInt32}
    (h : Moderate fields counter) {i : Nat} {f : FieldMapping} (hf : fields[i]? = some f) :
    f.type.IsSettled ∧ ∃ v, f.type.sentinel (Sentinel.advance counter i) = .ok v := by
  cases hinteger : f.type.isInteger with
  | true =>
    obtain ⟨bits, hbits⟩ := Option.isSome_iff_exists.mp hinteger
    exact ⟨.inl hinteger, FieldType.exists_sentinel_of_integerBits? hbits _⟩
  | false =>
    by_cases hbool : f.type = .scalar .bool
    · refine ⟨.inr (.inl hbool), .scalar (.bool true), ?_⟩
      rw [hbool]
      exact FieldType.sentinel_bool _
    · obtain ⟨hplace, hsentinel⟩ := h.others i f hf hinteger hbool
      exact ⟨.inr (.inr hplace), hsentinel⟩

/-- Wherever the counter stands, a record of up to 256 integers, up to one truth value and fields
recognised by place is filled, and no field of it is drawn again more than 256 times. A record with
more fields of eight bits than there are such numbers is never filled: one of its fields has no
sentinel or no distinct one is found. -/
theorem generate_outcome_of_counts (g : Registry) (owner : Nat) (fields : List FieldMapping)
    (record : Record) (counter : UInt32) :
    let filled := g.generate owner fields record counter
    let drawn := redraws owner fields record counter
    filled.counter = Sentinel.advance counter (fields.length + drawn.sum) ∧
      (Moderate fields counter →
        filled.outcome = .ok () ∧ drawn.length = fields.length ∧ ∀ n ∈ drawn, n ≤ 256) ∧
      (256 < fields.countP (·.type = .scalar .int8) →
        ∃ f ∈ fields, ∃ subject fault, filled.outcome = .error (.noSentinel subject fault) ∧
          ((∃ seq, f.type.sentinel seq = .error (.noSentinel subject fault)) ∨
            subject = f.column.fieldName ∧ fault = .noDistinctValue)) := by
  intro filled drawn
  refine ⟨?_, fun h => ?_, fun hmany => ?_⟩
  · have hcounter := @Refill.counter_fill owner
      { counter := Sentinel.advance counter fields.length, record } counter fields 0
    rw [Sentinel.advance_advance] at hcounter
    refine Eq.trans ?_ hcounter
    unfold filled generate
    dsimp only
    split <;> next hfill => rw [hfill]
  · have hroom : Refill.Room fields [] :=
      ⟨by simpa using h.integers, by simpa using h.booleans⟩
    have hsettled : ∀ f ∈ fields, f.type.IsSettled := by
      intro f hf
      obtain ⟨i, hi⟩ := List.getElem?_of_mem hf
      exact (h.exists_sentinel hi).1
    obtain ⟨hok, hdrawn⟩ := hroom.fill owner (i := 0)
      (r := { counter := Sentinel.advance counter fields.length, record }) hsettled
      fun i f hf => (h.exists_sentinel hf).2
    refine ⟨?_, hdrawn⟩
    unfold filled generate
    dsimp only
    split
    · rfl
    · next hfill =>
      rw [hfill] at hok
      exact hok
  · cases houtcome : filled.outcome with
    | ok u =>
      obtain ⟨r, hfill, -⟩ := generate_of_ok houtcome
      obtain ⟨hnodup, hle⟩ := Refill.countP_isNarrow_fill hfill List.nodup_nil
      have hroom := Refill.countP_isNarrow_le hnodup
      omega
    | error e =>
      obtain ⟨r, hfill, -⟩ := generate_of_error houtcome
      obtain ⟨done, f, left, hfields, -, hrefuses⟩ := Refill.exists_refuses_of_fill hfill
      refine ⟨f, by rw [hfields]; simp, ?_⟩
      cases hrefuses with
      | noSentinel hsentinel =>
        obtain ⟨subject, fault, rfl⟩ := FieldType.exists_of_sentinel_eq_error hsentinel
        exact ⟨subject, fault, rfl, .inl ⟨_, hsentinel⟩⟩
      | noDistinctValue => exact ⟨_, _, rfl, .inr ⟨rfl, rfl⟩⟩

def panelField (type : ScalarType) (n : Nat) : FieldMapping where
  column := { name := Numeral.ofNat n, fieldName := Numeral.ofNat n, sqlType := type.sqlType }
  slot := [Numeral.ofNat n]
  type := .scalar type

/-- Seven types of integers in turn, then a truth value and a text. -/
def panelFields : List FieldMapping :=
  ((List.range 256).map fun n =>
    panelField ([.int8, .uint8, .int16, .uint16, .int32, .uint32, .int64].getD (n % 7) .int8) n) ++
      [panelField .bool 256, panelField .string 257]

def meterFields : List FieldMapping := (List.range 257).map (panelField .int8)

/-- The first record is filled across the end of the counter, the second is not. -/
theorem generate_panel_and_meter :
    (Moderate panelFields 0xFFFFFFF0 ∧ 256 < meterFields.countP (·.type = .scalar .int8)) ∧
      ((({} : Registry).generate 1 panelFields {} 0xFFFFFFF0).outcome = .ok () ∧
        ∀ n ∈ redraws 1 panelFields {} 0xFFFFFFF0, n ≤ 256) ∧
      ∃ subject fault, (({} : Registry).generate 1 meterFields {} 0xFFFFFFF0).outcome =
        .error (.noSentinel subject fault) := by
  have htypes : ∀ f ∈ panelFields, f.type.isInteger = true ∨ f.type = .scalar .bool ∨
      f.type = .scalar .string := by decide +kernel
  have hmoderate : Moderate panelFields 0xFFFFFFF0 := by
    refine ⟨by decide +kernel, by decide +kernel, fun i f hf hinteger hbool => ?_⟩
    rcases htypes f (List.mem_of_getElem? hf) with h | h | h
    · rw [h] at hinteger
      cases hinteger
    · exact absurd h hbool
    · rw [h]
      exact ⟨rfl, _, rfl⟩
  have hmany : 256 < meterFields.countP (·.type = .scalar .int8) := by decide +kernel
  obtain ⟨-, hfilled, -⟩ := generate_outcome_of_counts {} 1 panelFields {} 0xFFFFFFF0
  obtain ⟨hok, -, hdrawn⟩ := hfilled hmoderate
  obtain ⟨-, -, hrefused⟩ := generate_outcome_of_counts {} 1 meterFields {} 0xFFFFFFF0
  obtain ⟨-, -, subject, fault, houtcome, -⟩ := hrefused hmany
  exact ⟨⟨hmoderate, hmany⟩, ⟨hok, hdrawn⟩, subject, fault, houtcome⟩

end Registry

end RecordMapper
