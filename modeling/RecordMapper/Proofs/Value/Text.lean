import RecordMapper.Proofs.Result
import RecordMapper.Value.Conversion

/-!
# Conversion of texts

Short and large texts are converted alike, by the reader of the kind that is asked for. A number in
a text has to be an integer of 64 bits before it is brought to a narrower kind, and a text that is
none is reported as such.
-/

set_option autoImplicit false

namespace RecordMapper

namespace ValueType

def isTextual : ValueType → Bool
  | text | clob => true
  | _ => false

def isBinary : ValueType → Bool
  | bytes | blob => true
  | _ => false

/-- The kinds that a text is read as, without blanks around it, by a reader of their own. -/
def isRead : ValueType → Bool
  | decimal | date | time | timestamp | uuid => true
  | _ => false

/-- The width of the integers of a kind. -/
def bits : ValueType → Nat
  | int8 => 8
  | int16 => 16
  | int32 => 32
  | int64 => 64
  | _ => 0

/-- Whether an integer of the kind can be this one. -/
def Admits (type : ValueType) (n : Int) : Prop :=
  -Int.pow 2 (type.bits - 1) ≤ n ∧ n < Int.pow 2 (type.bits - 1)

instance (type : ValueType) (n : Int) : Decidable (type.Admits n) :=
  inferInstanceAs (Decidable (_ ∧ _))

/-- The value of an integer kind for an integer. -/
def ofInteger (type : ValueType) (n : Int) : Value :=
  match type with
  | int8 => .int8 (Int8.ofInt n)
  | int16 => .int16 (Int16.ofInt n)
  | int32 => .int32 (Int32.ofInt n)
  | int64 => .int64 (Int64.ofInt n)
  | _ => .null

end ValueType

namespace Value

@[simp] theorem found_some {α : Type} (v : Value) (target : ValueType) (a : α) :
    v.found target (some a) = .ok a := rfl

theorem fits64_iff {n : Int} : fits64 n = true ↔ ValueType.int64.Admits n := by
  rw [fits64, Bool.and_eq_true, decide_eq_true_eq, decide_eq_true_eq]
  rfl

theorem fits64_of_admits {type : ValueType} (htype : type.isInteger = true) {n : Int}
    (h : type.Admits n) : fits64 n = true := by
  have hwidth : Int.pow 2 (type.bits - 1) ≤ Int.pow 2 63 := by cases type <;> cases htype <;> decide
  obtain ⟨hlow, hhigh⟩ := h
  rw [fits64, Bool.and_eq_true, decide_eq_true_eq, decide_eq_true_eq]
  omega

theorem fits64_of_integerOfText? {s : String} {n : Int} (h : integerOfText? s = some n) :
    fits64 n = true := by
  rcases Option.or_eq_some_iff.mp h with h | ⟨-, h⟩
  · exact (Option.filter_eq_some_iff.mp h).2
  · obtain ⟨x, -, hx⟩ := Option.bind_eq_some_iff.mp h
    exact (Option.filter_eq_some_iff.mp hx).2

def reading? (type : ValueType) (cs : List Char) : Option Value :=
  match type with
  | .decimal => (Decimal.ofText? cs).map .decimal
  | .date => ((Calendar.Date.ofText? cs).or ((Calendar.Timestamp.ofText? cs).map (·.date))).map .date
  | .time => ((Calendar.Time.ofText? cs).or ((Calendar.Timestamp.ofText? cs).map (·.time))).map .time
  | .timestamp => ((Calendar.Timestamp.ofText? cs).or
      ((Calendar.Date.ofText? cs).map (⟨·, .midnight⟩))).map .timestamp
  | .uuid => (Uuid.ofText? cs).map .uuid
  | _ => none

/-- The values that hold a text, short or large. -/
inductive Holds (s : String) : Value → Prop
  | text : Holds s (.text s)
  | clob : Holds s (.clob s)

/-- The values that carry bytes, few or many. -/
inductive Carries (b : List UInt8) : Value → Prop
  | bytes : Carries b (.bytes b)
  | blob : Carries b (.blob b)

theorem Carries.eq_of_type {b : List UInt8} {v w : Value} (hv : Carries b v) (hw : Carries b w)
    (h : v.type = w.type) : v = w := by
  cases hv <;> cases hw <;> first | rfl | cases h

namespace Holds
variable {s : String} {v : Value}

theorem of_isTextual (h : v.type.isTextual = true) : ∃ s, Holds s v := by
  cases v <;> cases h
  · exact ⟨_, .text⟩
  · exact ⟨_, .clob⟩

theorem eq_of_type {w : Value} (hv : Holds s v) (hw : Holds s w) (h : v.type = w.type) : v = w := by
  cases hv <;> cases hw <;> first | rfl | cases h

theorem convert_bool (h : Holds s v) : v.convert .bool = .ok (.bool (truthOfText s)) := by
  cases h <;> rfl

theorem toInteger (h : Holds s v) : v.toInteger = v.found .int64 (integerOfText? s) := by
  cases h <;> rfl

theorem narrow (h : Holds s v) (target : ValueType) (bits : Nat) :
    v.narrow target bits = match integerOfText? s with
      | none => .error (v.cannotBecome .int64)
      | some n => v.found target
          (if -Int.pow 2 (bits - 1) ≤ n ∧ n < Int.pow 2 (bits - 1) then some n else none) := by
  rw [Value.narrow, h.toInteger]
  cases integerOfText? s <;> rfl

/-- The reader gives an integer of 64 bits or none; a narrower kind has to admit it then. -/
theorem convert_integer (h : Holds s v) {type : ValueType} (htype : type.isInteger = true) :
    v.convert type = match integerOfText? s with
      | none => .error (v.cannotBecome .int64)
      | some n => if type.Admits n then .ok (type.ofInteger n) else .error (v.cannotBecome type) := by
  have hnarrow (bits : Nat) (wrap : Int → Value)
      (hconvert : v.convert type = (v.narrow type bits).map wrap)
      (hadmits : ∀ n, type.Admits n ↔ -Int.pow 2 (bits - 1) ≤ n ∧ n < Int.pow 2 (bits - 1))
      (hwrap : ∀ n, type.ofInteger n = wrap n) : v.convert type = match integerOfText? s with
        | none => .error (v.cannotBecome .int64)
        | some n =>
          if type.Admits n then .ok (type.ofInteger n) else .error (v.cannotBecome type) := by
    rw [hconvert, h.narrow]
    cases integerOfText? s with
    | none => rfl
    | some n =>
      simp only [hadmits, hwrap]
      split <;> rfl
  cases type <;> cases htype
  · exact hnarrow 8 (fun n => .int8 (Int8.ofInt n)) (by cases h <;> rfl)
      (fun n => .rfl) fun n => rfl
  · exact hnarrow 16 (fun n => .int16 (Int16.ofInt n)) (by cases h <;> rfl)
      (fun n => .rfl) fun n => rfl
  · exact hnarrow 32 (fun n => .int32 (Int32.ofInt n)) (by cases h <;> rfl)
      (fun n => .rfl) fun n => rfl
  · have hconvert : v.convert .int64 = v.toInteger.map fun n => .int64 (Int64.ofInt n) := by
      cases h <;> rfl
    rw [hconvert, h.toInteger]
    cases hread : integerOfText? s with
    | none => rfl
    | some n =>
      have hadmits := fits64_iff.mp (fits64_of_integerOfText? hread)
      simp only [if_pos hadmits]
      rfl

/-- Dates and timestamps help each other out; the other readers stand alone. -/
theorem convert_read (h : Holds s v) {type : ValueType} (htype : type.isRead = true) :
    v.convert type = v.found type (reading? type (Text.trimBlanks s.toList)) := by
  have hfound {α : Type} (wrap : α → Value) {read : Option α}
      (hconvert : v.convert type = (v.found type read).map wrap)
      (hread : reading? type (Text.trimBlanks s.toList) = read.map wrap) :
      v.convert type = v.found type (reading? type (Text.trimBlanks s.toList)) := by
    rw [hconvert, hread]
    cases read <;> rfl
  cases type <;> cases htype
  · exact hfound Value.decimal (by cases h <;> rfl) rfl
  · exact hfound Value.date (by cases h <;> rfl) rfl
  · exact hfound Value.time (by cases h <;> rfl) rfl
  · exact hfound Value.timestamp (by cases h <;> rfl) rfl
  · exact hfound Value.uuid (by cases h <;> rfl) rfl

theorem convert_textual (h : Holds s v) {target : ValueType} (ht : target.isTextual = true) :
    ∃ w, v.convert target = .ok w ∧ Holds s w ∧ w.type = target := by
  cases target <;> cases ht
  · exact ⟨.text s, by cases h <;> rfl, .text, rfl⟩
  · exact ⟨.clob s, by cases h <;> rfl, .clob, rfl⟩

theorem convert_binary (h : Holds s v) {target : ValueType} (ht : target.isBinary = true) :
    ∃ w, v.convert target = .ok w ∧ Carries s.toUTF8.toList w ∧ w.type = target := by
  cases target <;> cases ht
  · exact ⟨.bytes s.toUTF8.toList, by cases h <;> rfl, .bytes, rfl⟩
  · exact ⟨.blob s.toUTF8.toList, by cases h <;> rfl, .blob, rfl⟩

end Holds

end Value

end RecordMapper
