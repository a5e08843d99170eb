import RecordMapper.Proofs.Host.RoundTrip

/-!
# Kinds that are delivered

A conversion that succeeds delivers the kind that was asked for, or `null` for `null`, so converting
once more changes nothing. A built-in field type asks for the kind of value that stores it and finds
its content there. It refuses what was converted in two cases only: `null`, which optional types take
for an absent content, and integers that an unsigned type does not have, since they are stored in a
wider signed kind.
-/

set_option autoImplicit false

namespace RecordMapper

namespace Value
variable {v w : Value} {target : ValueType}

theorem eq_null_iff_of_convert (h : v.convert target = .ok w) : w = .null ↔ v = .null := by
  rw [← isNull_iff, ← isNull_iff, isNull_of_convert h]

theorem type_eq_of_convert (h : v.convert target = .ok w) (hv : v ≠ .null) : w.type = target := by
  have hnull : ¬ w.isNull = true := by
    rw [isNull_iff, eq_null_iff_of_convert h]
    exact hv
  exact (type_of_convert h).resolve_left hnull

theorem convert_of_convert (h : v.convert target = .ok w) : w.convert target = .ok w := by
  by_cases hv : v = .null
  · rw [(eq_null_iff_of_convert h).mpr hv]
    rfl
  · rw [← type_eq_of_convert h hv, convert_self]

end Value

namespace ScalarType

/-- The width of the type, if it is one of unsigned integers. -/
def unsignedBits? : ScalarType → Option Nat
  | uint8 => some 8
  | uint16 => some 16
  | uint32 => some 32
  | _ => none

/-- The value is an integer that the type, an unsigned one, does not have. -/
def IsOutOfRange (type : ScalarType) (w : Value) : Prop :=
  ∃ bits n, type.unsignedBits? = some bits ∧ w.integer? = some n ∧ ¬ (0 ≤ n ∧ n < Int.pow 2 bits)

section Exact
variable {type : ScalarType} {w : Value} {s : Scalar}

theorem isOutOfRange_iff {bits : Nat} {n : Int} (hbits : type.unsignedBits? = some bits)
    (hn : w.integer? = some n) : type.IsOutOfRange w ↔ ¬ (0 ≤ n ∧ n < Int.pow 2 bits) := by
  constructor
  · rintro ⟨bits', n', hbits', hn', hout⟩
    obtain rfl := Option.some.inj (hbits.symm.trans hbits')
    obtain rfl := Option.some.inj (hn.symm.trans hn')
    exact hout
  · intro hout
    exact ⟨bits, n, hbits, hn, hout⟩

/-- Of the values of its kind a type refuses those that are out of its range. -/
theorem ofExact?_eq_none_iff (h : w.type = type.valueType) :
    type.ofExact? w = none ↔ type.IsOutOfRange w := by
  have hrange {p : Prop} [Decidable p] (s : Scalar) :
      (if p then some s else none) = none ↔ ¬ p := by
    split <;> simp [*]
  cases type with
  | uint8 =>
    cases w <;> cases h
    exact (hrange _).trans (isOutOfRange_iff rfl rfl).symm
  | uint16 =>
    cases w <;> cases h
    exact (hrange _).trans (isOutOfRange_iff rfl rfl).symm
  | uint32 =>
    cases w <;> cases h
    exact (hrange _).trans (isOutOfRange_iff rfl rfl).symm
  | _ =>
    cases w <;> cases h
    exact iff_of_false nofun fun ⟨_, _, hbits, _⟩ => nomatch hbits

@[simp] theorem ofExact?_null (type : ScalarType) :
    type.ofExact? .null = none := by cases type <;> rfl

/-- The content is stored as the value that it was found in. -/
theorem toValue_of_ofExact? (h : type.ofExact? w = some s) : s.type = type ∧ s.toValue = w := by
  unfold ofExact? at h
  split at h
  case h_5 n =>
    obtain ⟨hrange, h⟩ := Option.ite_none_right_eq_some.mp h
    obtain rfl := Option.some.inj h
    have hlt : n.toInt.toNat < UInt8.size := (Int.toNat_lt hrange.1).mpr hrange.2
    refine ⟨rfl, congrArg Value.int16 ?_⟩
    rw [UInt8.toNat_ofNat_of_lt' hlt, ← Int16.ofInt_eq_ofNat, Int.toNat_of_nonneg hrange.1,
      Int16.ofInt_toInt]
  case h_6 n =>
    obtain ⟨hrange, h⟩ := Option.ite_none_right_eq_some.mp h
    obtain rfl := Option.some.inj h
    have hlt : n.toInt.toNat < UInt16.size := (Int.toNat_lt hrange.1).mpr hrange.2
    refine ⟨rfl, congrArg Value.int32 ?_⟩
    rw [UInt16.toNat_ofNat_of_lt' hlt, ← Int32.ofInt_eq_ofNat, Int.toNat_of_nonneg hrange.1,
      Int32.ofInt_toInt]
  case h_7 n =>
    obtain ⟨hrange, h⟩ := Option.ite_none_right_eq_some.mp h
    obtain rfl := Option.some.inj h
    have hlt : n.toInt.toNat < UInt32.size := (Int.toNat_lt hrange.1).mpr hrange.2
    refine ⟨rfl, congrArg Value.int64 ?_⟩
    rw [UInt32.toNat_ofNat_of_lt' hlt, ← Int64.ofInt_eq_ofNat, Int.toNat_of_nonneg hrange.1,
      Int64.ofInt_toInt]
  case h_18 => cases h
  all_goals
    obtain rfl := Option.some.inj h
    exact ⟨rfl, rfl⟩

end Exact

section Decoding
variable {type : ScalarType} {v w : Value} {e : Error}

theorem decode_of_convert_eq_error (h : v.convert type.valueType = .error e) :
    type.decode v = .error e := by
  rw [decode, h]
  rfl

theorem decode_eq_found (h : v.convert type.valueType = .ok w) :
    type.decode v = v.found type.valueType (type.ofExact? w) := by
  rw [decode, h]
  rfl

/-- What was converted is refused if it is `null` or out of range. -/
theorem decode_eq_error_iff (h : v.convert type.valueType = .ok w) :
    type.decode v = .error e ↔
      (v = .null ∨ type.IsOutOfRange w) ∧ e = v.cannotBecome type.valueType := by
  have hnone : type.ofExact? w = none ↔ v = .null ∨ type.IsOutOfRange w := by
    by_cases hv : v = .null
    · rw [(Value.eq_null_iff_of_convert h).mpr hv]
      exact iff_of_true (ofExact?_null type) (.inl hv)
    · rw [ofExact?_eq_none_iff (Value.type_eq_of_convert h hv), or_iff_right hv]
  rw [decode_eq_found h, ← hnone]
  cases type.ofExact? w with
  | none => simp [Value.found, eq_comm]
  | some s => simp [Value.found]

theorem toValue_of_decode (h : v.convert type.valueType = .ok w) {s : Scalar}
    (hs : type.decode v = .ok s) : s.type = type ∧ s.toValue = w := by
  rw [decode_eq_found h] at hs
  cases hexact : type.ofExact? w with
  | none =>
    rw [hexact] at hs
    cases hs
  | some found =>
    rw [hexact] at hs
    obtain rfl := Except.ok.inj hs
    exact toValue_of_ofExact? hexact

end Decoding

end ScalarType

namespace FieldType

/-- The field type is the built-in type, or optional contents of it. -/
inductive IsBuiltIn (base : ScalarType) : FieldType → Prop
  | scalar : IsBuiltIn base (.scalar base)
  | optional {type : FieldType} (h : IsBuiltIn base type) : IsBuiltIn base (.optional type)

section BuiltIn
variable {base : ScalarType} {type : FieldType} {cx : FieldContext} {v w : Value} {e : Error}

theorem IsBuiltIn.decode_of_convert_eq_error (htype : type.IsBuiltIn base)
    (h : v.convert base.valueType = .error e) : type.decode cx v = .error e := by
  induction htype with
  | scalar => exact Result.map_eq_error_iff.mpr (ScalarType.decode_of_convert_eq_error h)
  | optional _ ih =>
    have hnull : ¬ v.isNull = true := by
      rw [Value.isNull_iff]
      rintro rfl
      cases h
    rw [decode, if_neg hnull]
    exact Result.map_eq_error_iff.mpr ih

/-- By induction on the layers: below an optional type there is no `null` left. -/
theorem IsBuiltIn.decode_eq_error_iff (htype : type.IsBuiltIn base)
    (h : v.convert base.valueType = .ok w) :
    type.decode cx v = .error e ↔
      (v = .null ∧ type = .scalar base ∨ base.IsOutOfRange w) ∧
        e = v.cannotBecome base.valueType := by
  induction htype with
  | scalar =>
    rw [decode, Result.map_eq_error_iff, ScalarType.decode_eq_error_iff h]
    simp only [and_true]
  | optional _ ih =>
    rw [decode]
    split
    · next hnull =>
      obtain rfl := Value.isNull_iff.mp hnull
      obtain rfl := (Value.eq_null_iff_of_convert h).mpr rfl
      refine iff_of_false (fun hfails => ?_) ?_
      · cases hfails
      · rintro ⟨⟨-, hscalar⟩ | ⟨_, _, -, hn, -⟩, -⟩
        · cases hscalar
        · cases hn
    · next hnull =>
      have hv : v ≠ .null := fun hv => hnull (Value.isNull_iff.mpr hv)
      rw [Result.map_eq_error_iff, ih]
      simp [hv]

theorem IsBuiltIn.toValue_of_decode (htype : type.IsBuiltIn base)
    (h : v.convert base.valueType = .ok w) {x : FieldValue} (hx : type.decode cx v = .ok x) :
    x.HasType type ∧ x.toValue cx = .ok w := by
  induction htype generalizing x with
  | scalar =>
    obtain ⟨s, hs, rfl⟩ := Result.map_eq_ok_iff.mp hx
    obtain ⟨rfl, rfl⟩ := ScalarType.toValue_of_decode h hs
    exact ⟨.scalar s, rfl⟩
  | optional _ ih =>
    rw [decode] at hx
    split at hx
    · next hnull =>
      obtain rfl := Except.ok.inj hx
      rw [(Value.eq_null_iff_of_convert h).mpr (Value.isNull_iff.mp hnull)]
      exact ⟨.absent _, rfl⟩
    · obtain ⟨y, hy, rfl⟩ := Result.map_eq_ok_iff.mp hx
      obtain ⟨hhas, hvalue⟩ := ih hy
      exact ⟨.present y _ hhas, hvalue⟩

end BuiltIn

end FieldType

/-- A successful conversion gives `null` for `null` alone and otherwise the kind that was asked for,
so a second one changes nothing. A field of a built-in type fails where the conversion to its kind
does. Otherwise it refuses `null`, unless it is optional, and integers that its unsigned type does not
have, and nothing else; and a content that it finds is stored as the value that was converted. -/
theorem kinds_delivered :
    (∀ (v w : Value) (target : ValueType), v.convert target = .ok w →
      (w = .null ↔ v = .null) ∧ (v ≠ .null → w.type = target) ∧ w.convert target = .ok w) ∧
    ∀ (base : ScalarType) (type : FieldType), type.IsBuiltIn base →
      ∀ (cx : FieldContext) (v : Value),
        (∀ e, v.convert base.valueType = .error e → type.decode cx v = .error e) ∧
        ∀ w, v.convert base.valueType = .ok w →
          (∀ e, type.decode cx v = .error e ↔
            (v = .null ∧ type = .scalar base ∨ base.IsOutOfRange w) ∧
              e = v.cannotBecome base.valueType) ∧
          ∀ x, type.decode cx v = .ok x → x.HasType type ∧ x.toValue cx = .ok w := by
  constructor
  · intro v w target h
    exact ⟨Value.eq_null_iff_of_convert h, Value.type_eq_of_convert h, Value.convert_of_convert h⟩
  · intro base type htype cx v
    refine ⟨fun e h => htype.decode_of_convert_eq_error h, fun w h => ?_⟩
    exact ⟨fun e => htype.decode_eq_error_iff h, fun x hx => htype.toValue_of_decode h hx⟩

/-- An optional integer of 8 bits without sign: 300 is converted to 16 bits and refused there. -/
theorem kinds_delivered_uint8 :
    (Value.int32 300).convert .int16 = .ok (.int16 300) ∧
      (Value.int16 300).convert .int16 = .ok (.int16 300) ∧
      (FieldType.optional (.scalar .uint8)).decode ⟨.smallInt, .name⟩ (.int32 300) =
        .error (.unconvertible "300" .int32 (.type .int16)) := by
  have hwide : (Value.int32 300).convert .int16 = .ok (.int16 300) := rfl
  obtain ⟨hconvert, hdecode⟩ := kinds_delivered
  obtain ⟨-, hrefused⟩ := hdecode .uint8 _ (.optional .scalar) ⟨.smallInt, .name⟩
    (.int32 300)
  have hout : ScalarType.uint8.IsOutOfRange (.int16 300) := ⟨8, 300, rfl, rfl, by decide⟩
  have hnamed : (Value.int32 300).cannotBecome .int16 =
      .unconvertible "300" .int32 (.type .int16) := by
    have hdisplay : (Value.int32 300).display = "300" := by decide +kernel
    rw [Value.cannotBecome, hdisplay]
    rfl
  refine ⟨hwide, (hconvert _ _ _ hwide).2.2, ?_⟩
  exact ((hrefused _ hwide).1 _).mpr ⟨.inr hout, hnamed.symm⟩

end RecordMapper
