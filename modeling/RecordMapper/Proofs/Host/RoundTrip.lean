import RecordMapper.Host.Field
import RecordMapper.Proofs.Result
import RecordMapper.Proofs.Table.Consistency

/-!
# Contents that survive their column

A content is encoded, brought to the storage type of its column, and read back by the type of its
field. If the column has the natural storage type, what is read is the content that was written:
for the built-in types, the enumerations under each strategy, the wrappers and the optional types.

Three things cannot survive. A member of an enumeration is lost if another one is written in the
same way, or if it is written by a name with blanks around it, which are removed on reading; and a
content that is present but stored as `null` is read as absent.
-/

set_option autoImplicit false

namespace RecordMapper

namespace Value

theorem same_comm (v w : Value) : v.same w = w.same v := by
  unfold same
  split
  · exact Binary.same_comm _ _
  · exact Binary.same_comm _ _
  · simp only [Decimal.same, eq_comm]
  · next hreal hdouble hdecimal =>
    split
    · exact absurd rfl (hreal _ _ rfl)
    · exact absurd rfl (hdouble _ _ rfl)
    · exact absurd rfl (hdecimal _ _ rfl)
    · simp only [eq_comm]

@[simp] theorem convert_self (v : Value) : v.convert v.type = .ok v := by simp [convert]

/-- The storage type that is natural for a value only makes large values of small ones, and that
is undone. -/
theorem convert_of_convertToSql {v stored : Value}
    (h : v.convertToSql (v.type.sqlType?.getD .varchar) = .ok stored) :
    stored.convert v.type = .ok v := by
  by_cases hself : ValueType.ofSqlType (v.type.sqlType?.getD .varchar) = v.type
  · rw [convertToSql, hself, convert_self] at h
    obtain rfl := Except.ok.inj h
    exact convert_self v
  · -- only `null` and small byte strings are bound as another kind of value than they are
    cases v with
    | null =>
      obtain rfl : Value.null = stored := Except.ok.inj h
      rfl
    | bytes b =>
      obtain rfl : Value.blob b = stored := Except.ok.inj h
      rfl
    | _ => exact absurd rfl hself

theorem isNull_of_convert {v w : Value} {target : ValueType} (h : v.convert target = .ok w) :
    w.isNull = v.isNull := by
  unfold convert at h
  split at h
  · obtain rfl := Except.ok.inj h
    rfl
  · next hother =>
    have hnull : v.isNull = false := by
      rw [Bool.or_eq_true, not_or] at hother
      exact Bool.eq_false_iff.mpr hother.1
    rw [hnull]
    split at h
    · cases h
    all_goals
      obtain ⟨x, -, rfl⟩ := Result.map_eq_ok_iff.mp h
      rfl

/-- Every reader makes values of its own kind. -/
theorem type_of_convert {v w : Value} {target : ValueType} (h : v.convert target = .ok w) :
    w.isNull = true ∨ w.type = target := by
  unfold convert at h
  split at h
  · next hsame =>
    obtain rfl := Except.ok.inj h
    simpa using hsame
  · refine .inr ?_
    split at h
    · cases h
    all_goals
      obtain ⟨x, -, rfl⟩ := Result.map_eq_ok_iff.mp h
      rfl

end Value

namespace ScalarType

/-- The storage type takes the contents of the field type as they are. Texts may be large ones. -/
def IsKeptIn (type : ScalarType) (sql : SqlType) : Prop :=
  sql = type.sqlType ∨ type = .string ∧ sql = .clob

/-- An unsigned integer is in the range of the wider signed type that stores it. -/
@[simp] theorem ofExact?_toValue (s : Scalar) : s.type.ofExact? s.toValue = some s := by
  cases s with
  | uint8 n =>
    have hlt : (n.toNat : Int) < 256 := Int.ofNat_lt.mpr n.toNat_lt
    have hn : (Int16.ofNat n.toNat).toInt = n.toNat := Int16.toInt_ofNat_of_lt (by omega)
    simp only [Scalar.type, Scalar.toValue, ofExact?, hn]
    rw [if_pos ⟨Int.natCast_nonneg _, hlt⟩, Int.toNat_natCast, UInt8.ofNat_toNat]
  | uint16 n =>
    have hlt : (n.toNat : Int) < 65536 := Int.ofNat_lt.mpr n.toNat_lt
    have hn : (Int32.ofNat n.toNat).toInt = n.toNat := Int32.toInt_ofNat_of_lt (by omega)
    simp only [Scalar.type, Scalar.toValue, ofExact?, hn]
    rw [if_pos ⟨Int.natCast_nonneg _, hlt⟩, Int.toNat_natCast, UInt16.ofNat_toNat]
  | uint32 n =>
    have hlt : (n.toNat : Int) < 4294967296 := Int.ofNat_lt.mpr n.toNat_lt
    have hn : (Int64.ofNat n.toNat).toInt = n.toNat := Int64.toInt_ofNat_of_lt (by omega)
    simp only [Scalar.type, Scalar.toValue, ofExact?, hn]
    rw [if_pos ⟨Int.natCast_nonneg _, hlt⟩, Int.toNat_natCast, UInt32.ofNat_toNat]
  | _ => rfl

theorem decode_of_convert {s : Scalar} {stored : Value}
    (h : stored.convert s.type.valueType = .ok s.toValue) : s.type.decode stored = .ok s := by
  rw [decode, h]
  change stored.found _ (s.type.ofExact? s.toValue) = _
  rw [ofExact?_toValue]
  rfl

theorem decode_of_convertToSql {s : Scalar} {sql : SqlType} {stored : Value}
    (hkept : s.type.IsKeptIn sql) (h : s.toValue.convertToSql sql = .ok stored) :
    s.type.decode stored = .ok s := by
  apply decode_of_convert
  rcases hkept with rfl | ⟨hstring, rfl⟩
  · rw [← Scalar.type_toValue]
    apply Value.convert_of_convertToSql
    rwa [Scalar.type_toValue, sqlType?_valueType]
  · cases s <;> cases hstring
    next s =>
    obtain rfl : Value.clob s = stored := Except.ok.inj h
    rfl

end ScalarType

/-- Where one position alone passes, the search ends there. -/
theorem find?_finRange {n : Nat} {p : Fin n → Bool} {i : Fin n} (h : ∀ j, p j = true ↔ j = i) :
    (List.finRange n).find? p = some i := by
  have hsome : ((List.finRange n).find? p).isSome :=
    List.find?_isSome.mpr ⟨i, List.mem_finRange i, (h i).mpr rfl⟩
  obtain ⟨j, hj⟩ := Option.isSome_iff_exists.mp hsome
  rw [hj, (h j).mp (List.find?_some hj)]

namespace Enumeration
variable {e : Enumeration} {member : e.Member} {raw stored : Value}

def names (e : Enumeration) : List String := e.members.map (·.name)

def ids (e : Enumeration) : List Value := e.members.filterMap (·.customId)

/-- The identifiers are of one kind and can be told apart. An undefined number is not even the
same as itself. -/
structure HasIds (e : Enumeration) : Prop where
  ofType : ∃ type : ValueType, ∀ id ∈ e.ids, id.type = type
  defined : ∀ id ∈ e.ids, id.same id = true
  distinct : e.ids.Pairwise fun a b => a.same b = false

theorem mem_ids {m : EnumMember} (hm : m ∈ e.members) {id : Value} (hid : m.customId = some id) :
    id ∈ e.ids :=
  List.mem_filterMap.mpr ⟨m, hm, hid⟩

@[simp] theorem getElem?_names (m : e.Member) : e.names[m.val]? = some (e.members.get m).name := by
  rw [names, List.getElem?_map, List.getElem?_eq_getElem m.isLt]
  rfl

theorem find?_name (h : DistinctNames e.names) {s : String} (hbare : Text.trim s = s)
    (hs : stored.string? = some s) (hname : (e.members.get member).name = s) :
    e.find? stored .name = some member := by
  change (stored.string?).bind _ = _
  rw [hs, Option.bind_some]
  refine find?_finRange fun j => ?_
  rw [hbare, ← hname]
  constructor
  · intro hsame
    exact Fin.ext (h.index_eq (getElem?_names j) (getElem?_names member) hsame)
  · rintro rfl
    exact Text.sameLetters_refl _

theorem find?_ordinal (hlt : member.val < Nat.pow 2 31)
    (hstored : stored = .int32 (Int32.ofNat member.val)) :
    e.find? stored .ordinal = some member := by
  have hsmall : member.val < 2147483648 := hlt
  have hnarrow : (Int32.ofNat member.val).toInt = member.val := Int32.toInt_ofNat_of_lt hlt
  have hwide : (Int64.ofInt (Int32.ofNat member.val).toInt).toInt = member.val := by
    rw [hnarrow]
    exact Int64.toInt_ofInt_of_le (by omega) (by omega)
  have hconvert : stored.convert .int64 =
      .ok (.int64 (Int64.ofInt (Int32.ofNat member.val).toInt)) := by
    rw [hstored]
    rfl
  simp only [find?, hconvert, hwide, Int.toNat_natCast]
  exact dif_pos ⟨Int.natCast_nonneg _, member.isLt⟩

/-- A member has the identifier that is read if it is the same as its own. -/
theorem hasId_iff {type : ValueType} (htype : ∀ id ∈ e.ids, id.type = type) {id : Value}
    (hstored : stored.convert type = .ok id) {m : EnumMember} (hm : m ∈ e.members) :
    hasId stored m = true ↔ ∃ own, m.customId = some own ∧ id.same own = true := by
  cases hown : m.customId with
  | none => simp [hasId, hown]
  | some own =>
    have hconvert : stored.convert own.type = .ok id := by rwa [htype own (mem_ids hm hown)]
    simp [hasId, hown, hconvert]

/-- Two members with the same identifier are one, whichever comes first. -/
theorem eq_of_same (h : e.ids.Pairwise fun a b => a.same b = false) {i j : e.Member}
    {id own : Value} (hi : (e.members.get i).customId = some id)
    (hj : (e.members.get j).customId = some own) (hsame : id.same own = true) : i = j := by
  have hpair := List.pairwise_iff_getElem.mp (List.pairwise_filterMap.mp h)
  rcases Nat.lt_trichotomy i.val j.val with hlt | heq | hgt
  · have hne := hpair i.val j.val i.isLt j.isLt hlt id hi own hj
    rw [hne] at hsame
    cases hsame
  · exact Fin.ext heq
  · have hne := hpair j.val i.val j.isLt i.isLt hgt own hj id hi
    rw [Value.same_comm, hne] at hsame
    cases hsame

theorem find?_customId (h : e.HasIds) {id : Value} (hid : (e.members.get member).customId = some id)
    (hstored : stored.convert id.type = .ok id) : e.find? stored .customId = some member := by
  obtain ⟨type, htype⟩ := h.ofType
  have hmem := mem_ids (List.getElem_mem member.isLt) hid
  rw [htype id hmem] at hstored
  refine find?_finRange fun j => ?_
  refine (hasId_iff htype hstored (List.getElem_mem j.isLt)).trans ?_
  constructor
  · rintro ⟨own, hown, hsame⟩
    exact (eq_of_same h.distinct hid hown hsame).symm
  · rintro rfl
    exact ⟨id, hid, h.defined id hmem⟩

/-- The natural storage type is that of any of the identifiers. -/
theorem sqlType_customId (h : e.HasIds) {id : Value} (hid : id ∈ e.ids) :
    e.sqlType .customId = id.type.sqlType?.getD .varchar := by
  obtain ⟨type, htype⟩ := h.ofType
  cases hfirst : e.members.findSome? (·.customId) with
  | none =>
    obtain ⟨m, hm, hown⟩ := List.mem_filterMap.mp hid
    rw [List.findSome?_eq_none_iff.mp hfirst m hm] at hown
    cases hown
  | some first =>
    obtain ⟨m, hm, hown⟩ := List.exists_of_findSome?_eq_some hfirst
    rw [sqlType, hfirst, Option.bind_some, htype first (mem_ids hm hown), htype id hid]

/-- What an enumeration has to offer so that a strategy tells its members apart. -/
def IsDecodable (e : Enumeration) : EnumStrategy → Prop
  | .name => DistinctNames e.names
  | .ordinal => True
  | .customId => e.HasIds

/-- Written by its name, the member leaves nothing to be removed around it. -/
def IsBare (e : Enumeration) (member : e.Member) (strategy : EnumStrategy) : Prop :=
  strategy = .name → Text.trim (e.members.get member).name = (e.members.get member).name

theorem decode_of_convertToSql {strategy : EnumStrategy} (h : e.IsDecodable strategy)
    (hbare : e.IsBare member strategy) (hraw : e.encode member strategy = .ok raw)
    (hstored : raw.convertToSql (e.sqlType strategy) = .ok stored) :
    e.decode stored strategy = .ok member := by
  suffices hfind : e.find? stored strategy = some member by
    rw [decode, hfind]
  cases strategy with
  | name =>
    obtain rfl : .text e.members[member].name = raw := Except.ok.inj hraw
    obtain rfl : .text e.members[member].name = stored := Except.ok.inj hstored
    exact find?_name h (hbare rfl) rfl rfl
  | ordinal =>
    simp only [encode] at hraw
    split at hraw
    · next hlt =>
      obtain rfl := Except.ok.inj hraw
      obtain rfl := Except.ok.inj hstored
      exact find?_ordinal hlt rfl
    · cases hraw
  | customId =>
    simp only [encode] at hraw
    split at hraw
    · next id hid =>
      obtain rfl := Except.ok.inj hraw
      rw [sqlType_customId h (mem_ids (List.getElem_mem member.isLt) hid)] at hstored
      exact find?_customId h hid (Value.convert_of_convertToSql hstored)
    · cases hraw

end Enumeration

/-- The contents that a field of the type can have. -/
inductive FieldValue.HasType : FieldValue → FieldType → Prop
  | scalar (s : Scalar) : HasType (.scalar s) (.scalar s.type)
  | member (e : Enumeration) (m : e.Member) : HasType (.member e m) (.enumeration e)
  | wrapped (w : Wrapper) (s : Scalar) (h : s.type = w.base) : HasType (.wrapped w s) (.wrapped w)
  | absent (type : FieldType) : HasType (.absent type) (.optional type)
  | present (v : FieldValue) (type : FieldType) (h : HasType v type) :
    HasType (.present v) (.optional type)

/-- A content that is present is not stored as `null`, which stands for an absent one. -/
def FieldValue.ShowsPresence (cx : FieldContext) : FieldValue → Prop
  | present v => v.toValue cx ≠ .ok .null
  | _ => True

/-- No name with blanks around it is written. -/
def FieldValue.IsBare (strategy : EnumStrategy) : FieldValue → Prop
  | member e m => e.IsBare m strategy
  | present v => v.IsBare strategy
  | scalar _ | wrapped _ _ | absent _ => True

/-- What is read where a content of the type has been written: the content itself, or that there is
none if it was hidden behind `null`. -/
def FieldValue.ReadsAs (cx : FieldContext) (type : FieldType) (v w : FieldValue) : Prop :=
  (v.ShowsPresence cx → w = v) ∧
    (¬ v.ShowsPresence cx → ∃ inner, type = .optional inner ∧ w = .absent inner)

namespace FieldType

/-- Contents of the type can be told apart by what their natural storage type holds. -/
def IsDecodable (strategy : EnumStrategy) : FieldType → Prop
  | scalar _ => True
  | enumeration e => e.IsDecodable strategy
  | wrapped w => w.base.IsKeptIn w.sqlType
  | optional type => type.IsDecodable strategy

/-- Reading undoes writing where the storage type is the natural one. -/
theorem decode_of_showsPresence {cx : FieldContext} {type : FieldType} {v : FieldValue}
    {raw stored : Value} (hv : v.HasType type) (hdecodable : type.IsDecodable cx.strategy)
    (hbare : v.IsBare cx.strategy) (hpresence : v.ShowsPresence cx) (hraw : v.toValue cx = .ok raw)
    (hstored : raw.convertToSql (type.sqlType cx.strategy) = .ok stored) :
    type.decode cx stored = .ok v := by
  induction hv with
  | scalar s =>
    obtain rfl : s.toValue = raw := Except.ok.inj hraw
    rw [decode, ScalarType.decode_of_convertToSql (Or.inl rfl) hstored]
    rfl
  | member e m =>
    rw [decode, Enumeration.decode_of_convertToSql hdecodable hbare hraw hstored]
    rfl
  | wrapped w s hbase =>
    obtain rfl : s.toValue = raw := Except.ok.inj hraw
    rw [IsDecodable, ← hbase] at hdecodable
    rw [decode, ← hbase, ScalarType.decode_of_convertToSql hdecodable hstored]
    rfl
  | absent type =>
    obtain rfl : .null = raw := Except.ok.inj hraw
    obtain rfl : .null = stored := Except.ok.inj hstored
    rfl
  | present v type _ ih =>
    have hinner : v.ShowsPresence cx := by
      cases v with
      | present w => exact hpresence
      | _ => trivial
    have hnull : ¬ stored.isNull = true := by
      rw [Value.isNull_of_convert hstored, Value.isNull_iff]
      rintro rfl
      exact hpresence hraw
    rw [decode, if_neg hnull, ih hdecodable hbare hinner hraw hstored]
    rfl

/-- What is stored as `null` is read as absent. -/
theorem decode_of_not_showsPresence {cx : FieldContext} {type : FieldType} {v : FieldValue}
    {raw stored : Value} (hv : v.HasType type) (hhidden : ¬ v.ShowsPresence cx)
    (hraw : v.toValue cx = .ok raw)
    (hstored : raw.convertToSql (type.sqlType cx.strategy) = .ok stored) :
    ∃ inner, type = .optional inner ∧ type.decode cx stored = .ok (.absent inner) := by
  cases hv with
  | present v inner _ =>
    have hnull : v.toValue cx = .ok .null := Classical.not_not.mp hhidden
    obtain rfl : .null = raw := Except.ok.inj (hnull.symm.trans hraw)
    obtain rfl : .null = stored := Except.ok.inj hstored
    exact ⟨inner, rfl, rfl⟩
  | _ => exact absurd trivial hhidden

theorem exists_readsAs {cx : FieldContext} {type : FieldType} {v : FieldValue} {raw stored : Value}
    (hv : v.HasType type) (hdecodable : type.IsDecodable cx.strategy)
    (hbare : v.IsBare cx.strategy) (hraw : v.toValue cx = .ok raw)
    (hstored : raw.convertToSql (type.sqlType cx.strategy) = .ok stored) :
    ∃ w, type.decode cx stored = .ok w ∧ v.ReadsAs cx type w := by
  by_cases hpresence : v.ShowsPresence cx
  · exact ⟨v, decode_of_showsPresence hv hdecodable hbare hpresence hraw hstored,
      fun _ => rfl, fun hhidden => absurd hpresence hhidden⟩
  · obtain ⟨inner, htype, hdecode⟩ := decode_of_not_showsPresence hv hpresence hraw hstored
    exact ⟨.absent inner, hdecode, fun h => absurd h hpresence, fun _ => ⟨inner, htype, rfl⟩⟩

end FieldType

end RecordMapper
