import Mathlib.Data.Rat.Floor
import RecordMapper.Proofs.Binary.Reading
import RecordMapper.Proofs.Value.Text

/-!
# Numerals that become integers and truth values

A text of digits that fits 64 bits is an integer as it stands. Every other numeral is brought to the
nearest number of 64 bits first, and what becomes of it is decided by that number: the integer is
the truncated number, and it is true if the number is neither zero nor infinite. So it is exact
for numerals that denote a number of 64 bits, and others may be a unit off, be taken for an integer
at the end of the range or for zero.
-/

set_option autoImplicit false

namespace RecordMapper

/-- The integer part, towards zero. -/
def truncation (r : Rat) : Int := if r < 0 then -(-r).floor else r.floor

@[simp] theorem truncation_intCast (n : Int) : truncation n = n := by
  unfold truncation
  split
  · rw [← Int.cast_neg, Rat.floor_intCast, neg_neg]
  · rw [Rat.floor_intCast]

theorem Binary.truncated?_of_isFinite {f : BinaryFormat} {x : Binary f} (h : x.isFinite = true) :
    x.truncated? = some (truncation x.toRat) := by
  have hnonneg : 0 ≤ x.abs := value_nonneg _
  unfold truncated? truncation toRat
  rw [if_pos h]
  cases x.isNegative with
  | false => rw [if_neg Bool.false_ne_true, if_neg Bool.false_ne_true, if_neg (not_lt_of_ge hnonneg)]
  | true =>
    rw [if_pos rfl, if_pos rfl, neg_neg]
    split
    · rfl
    · next hzero =>
      have hzero : x.abs = 0 := le_antisymm (by linarith) hnonneg
      rw [hzero]
      rfl

namespace Value
variable {t : WrittenNumeral} {v : Value} {type : ValueType} {lead trail : List Char}

/-- The outcome that a rational calls for: its integer part if the kind admits it, or else a failure
to convert. -/
def ConvertsAs (v : Value) (type : ValueType) (r : Rat) : Prop :=
  if type.Admits (truncation r) then v.convert type = .ok (type.ofInteger (truncation r))
  else ∃ target, v.convert type = .error (v.cannotBecome target)

theorem trimBlanks_numeral (hlead : ∀ c ∈ lead, Text.isBlank c = true)
    (htrail : ∀ c ∈ trail, Text.isBlank c = true) :
    Text.trimBlanks (String.ofList (lead ++ (t.chars ++ trail))).toList = t.chars := by
  rw [String.toList_ofList]
  exact Text.trimBlanks_enclosed t.isTrimmed_chars hlead htrail

theorem Holds.convertsAs {s : String} (hv : Holds s v) (htype : type.isInteger = true) {r : Rat}
    (h : integerOfText? s = (some (truncation r)).filter fits64) : v.ConvertsAs type r := by
  unfold ConvertsAs
  rw [hv.convert_integer htype, h]
  split
  · next hadmits =>
    rw [Option.filter_some_pos (fits64_of_admits htype hadmits)]
    exact if_pos hadmits
  · next hadmits =>
    cases hfits : fits64 (truncation r) with
    | true =>
      rw [Option.filter_some_pos hfits]
      exact ⟨type, if_neg hadmits⟩
    | false =>
      rw [Option.filter_some_neg hfits]
      exact ⟨.int64, rfl⟩

theorem integerOfText?_of_isPlain (hlead : ∀ c ∈ lead, Text.isBlank c = true)
    (htrail : ∀ c ∈ trail, Text.isBlank c = true)
    (h : t.isPlain = true ∧ fits64 (truncation t.toRat) = true) :
    integerOfText? (String.ofList (lead ++ (t.chars ++ trail))) =
      (some (truncation t.toRat)).filter fits64 := by
  obtain ⟨n, hread, hn⟩ := t.integer?_chars_of_isPlain h.1
  have hfits := h.2
  rw [← hn, truncation_intCast] at hfits ⊢
  unfold integerOfText?
  dsimp only
  rw [trimBlanks_numeral hlead htrail, hread, Option.filter_some_pos hfits]
  rfl

/-- Where the digits alone do not do, the nearest number of 64 bits is read. -/
theorem integerOfText?_of_not_isPlain (hlead : ∀ c ∈ lead, Text.isBlank c = true)
    (htrail : ∀ c ∈ trail, Text.isBlank c = true)
    (h : ¬ (t.isPlain = true ∧ fits64 (truncation t.toRat) = true)) {x : Binary64}
    (hx : Binary.ofText? .double t.chars = some x) :
    integerOfText? (String.ofList (lead ++ (t.chars ++ trail))) = integerOfBinary? x := by
  have hnone : (Numeral.integer? t.chars).filter fits64 = none := by
    cases hplain : t.isPlain with
    | false =>
      rw [t.integer?_chars_of_not_isPlain hplain]
      rfl
    | true =>
      obtain ⟨n, hread, hn⟩ := t.integer?_chars_of_isPlain hplain
      rw [hread, Option.filter_some_neg]
      rw [← hn, truncation_intCast] at h
      rw [Bool.eq_false_iff]
      intro hfits
      exact h ⟨hplain, hfits⟩
  unfold integerOfText?
  dsimp only
  rw [trimBlanks_numeral hlead htrail, hnone, hx]
  rfl

theorem truthOfText_numeral (hlead : ∀ c ∈ lead, Text.isBlank c = true)
    (htrail : ∀ c ∈ trail, Text.isBlank c = true) {x : Binary64}
    (hx : Binary.ofText? .double t.chars = some x) :
    truthOfText (String.ofList (lead ++ (t.chars ++ trail))) = (x.isFinite && !x.isZero) := by
  have hword (word : String) (hmem : word ∈ truthWords) :
      Text.sameLetters (String.ofList t.chars) word = false := by
    obtain ⟨c, hc, rest, hcons⟩ := t.exists_chars_eq_cons
    have hall : truthWords.all (fun word => ('+' :: '-' :: WrittenNumeral.heads).all fun c =>
        (word.toList.map Char.toLower).head? ≠ some c.toLower) = true := by decide
    have hhead := of_decide_eq_true
      (List.all_eq_true.mp (List.all_eq_true.mp hall word hmem) c hc)
    unfold Text.sameLetters
    rw [String.toList_ofList, hcons, beq_eq_false_iff_ne]
    intro heq
    rw [← heq] at hhead
    exact hhead rfl
  unfold truthOfText Text.trim
  dsimp only
  rw [trimBlanks_numeral hlead htrail, String.toList_ofList, hx]
  dsimp only
  cases x.isFinite with
  | true => rfl
  | false =>
    rw [if_neg Bool.false_ne_true, Bool.false_and, List.any_eq_false]
    intro word hmem
    rw [hword word hmem]
    exact Bool.false_ne_true

/-- A text that is a numeral between blanks is converted to an integer kind with the outcome that
its rational calls for if the digits are an integer of 64 bits, and otherwise with the outcome that
the nearest number of 64 bits calls for; an infinite one is not converted. So the outcome is exact
for each numeral that denotes a number of 64 bits. The text is true exactly if the magnitude of
the rational is more than half of the smallest number and not so large that it is rounded to
infinity. -/
theorem numerals_convert_as_nearest (t : WrittenNumeral)
    (hlead : ∀ c ∈ lead, Text.isBlank c = true) (htrail : ∀ c ∈ trail, Text.isBlank c = true)
    (hv : Holds (String.ofList (lead ++ (t.chars ++ trail))) v) :
    (∃ x : Binary64, Binary.IsNearest t.toRat x ∧
      ∀ type : ValueType, type.isInteger = true →
        if t.isPlain = true ∧ fits64 (truncation t.toRat) = true then v.ConvertsAs type t.toRat
        else if x.isFinite = true then v.ConvertsAs type x.toRat
        else v.convert type = .error (v.cannotBecome .int64)) ∧
    ((∃ y : Binary64, y.isFinite = true ∧ y.toRat = t.toRat) →
      ∀ type : ValueType, type.isInteger = true → v.ConvertsAs type t.toRat) ∧
    v.convert .bool = .ok (.bool
      (decide ((2 : Rat) ^ (-1075 : Int) < |t.toRat| ∧ |t.toRat| < 2 ^ 1024 - 2 ^ 970))) := by
  obtain ⟨x, hx, hnearest, hfinite, hzero⟩ := t.exists_isNearest
  have hplain (h : t.isPlain = true ∧ fits64 (truncation t.toRat) = true) (type : ValueType)
      (htype : type.isInteger = true) : v.ConvertsAs type t.toRat :=
    hv.convertsAs htype (integerOfText?_of_isPlain hlead htrail h)
  have hread (h : ¬ (t.isPlain = true ∧ fits64 (truncation t.toRat) = true))
      (hfinite : x.isFinite = true) (type : ValueType) (htype : type.isInteger = true) :
      v.ConvertsAs type x.toRat := by
    apply hv.convertsAs htype
    rw [integerOfText?_of_not_isPlain hlead htrail h hx, integerOfBinary?,
      Binary.truncated?_of_isFinite hfinite]
  refine ⟨⟨x, hnearest, fun type htype => ?_⟩, ?_, ?_⟩
  · split
    · next h => exact hplain h type htype
    · next h =>
      split
      · next hfinite => exact hread h hfinite type htype
      · next hinfinite =>
        rw [hv.convert_integer htype, integerOfText?_of_not_isPlain hlead htrail h hx,
          integerOfBinary?, Binary.truncated?, if_neg hinfinite]
        rfl
  · rintro ⟨y, hy, hr⟩ type htype
    obtain ⟨hfinite, hexact⟩ := hnearest.exact hy hr
    by_cases h : t.isPlain = true ∧ fits64 (truncation t.toRat) = true
    · exact hplain h type htype
    · rw [← hexact]
      exact hread h hfinite type htype
  · have htruth : truthOfText (String.ofList (lead ++ (t.chars ++ trail))) =
        decide ((2 : Rat) ^ (-1075 : Int) < |t.toRat| ∧ |t.toRat| < 2 ^ 1024 - 2 ^ 970) := by
      rw [truthOfText_numeral hlead htrail hx, Bool.eq_iff_iff, Bool.and_eq_true, hfinite,
        decide_eq_true_eq, Bool.not_eq_true', Bool.eq_false_iff, ne_eq, hzero, not_le]
      exact and_comm
    rw [hv.convert_bool, htruth]

/-- Written `2.50`. -/
def priceNumeral : WrittenNumeral where
  sign := .absent
  whole := [2]
  part := some [5, 0]
  power := none
  digits_ne := by decide
  digits_lt := by decide

theorem numerals_convert_as_nearest_price :
    (clob " 2.50\t").convert .int8 = .ok (int8 2) ∧
      (clob " 2.50\t").convert .bool = .ok (.bool true) := by
  have hlead : ∀ c ∈ [' '], Text.isBlank c = true := List.forall_mem_singleton.mpr (by decide)
  have htrail : ∀ c ∈ ['\t'], Text.isBlank c = true := List.forall_mem_singleton.mpr (by decide)
  have hholds : Holds (String.ofList ([' '] ++ (priceNumeral.chars ++ ['\t'])))
      (clob " 2.50\t") := by
    have htext : String.ofList ([' '] ++ (priceNumeral.chars ++ ['\t'])) = " 2.50\t" := by decide
    rw [htext]
    exact .clob
  have hvalue : priceNumeral.toRat = 5 / 2 := by decide +kernel
  obtain ⟨-, hexact, htrue⟩ := numerals_convert_as_nearest priceNumeral hlead htrail hholds
  have hnumber : ∃ y : Binary64, y.isFinite = true ∧ y.toRat = priceNumeral.toRat :=
    ⟨⟨0x4004000000000000⟩, by decide +kernel, by decide +kernel⟩
  have hconverted := hexact hnumber .int8 rfl
  have htruncated : truncation (5 / 2) = 2 := by decide +kernel
  have hmagnitude : (2 : Rat) ^ (-1075 : Int) < |5 / 2| ∧ |(5 / 2 : Rat)| < 2 ^ 1024 - 2 ^ 970 := by
    decide +kernel
  unfold ConvertsAs at hconverted
  rw [hvalue, htruncated, if_pos (by decide)] at hconverted
  rw [hvalue, decide_eq_true hmagnitude] at htrue
  exact ⟨hconverted, htrue⟩

/-- One less than the least integer of 64 bits. -/
def lowNumeral : WrittenNumeral where
  sign := .minus
  whole := [9, 2, 2, 3, 3, 7, 2, 0, 3, 6, 8, 5, 4, 7, 7, 5, 8, 0, 9]
  part := none
  power := none
  digits_ne := by decide
  digits_lt := by decide

/-- A positive number, written `1e-400`. -/
def smallNumeral : WrittenNumeral where
  sign := .absent
  whole := [1]
  part := none
  power := some ⟨'e', .minus, [4, 0, 0], by decide, by decide, by decide⟩
  digits_ne := by decide
  digits_lt := by decide

/-- The first is taken for the least integer, which it is not, and the second for zero. -/
theorem numerals_converted_inexactly :
    (lowNumeral.toRat = -9223372036854775809 ∧
      (text (String.ofList lowNumeral.chars)).convert .int64 = .ok (int64 Int64.minValue) ∧
      ¬ (text (String.ofList lowNumeral.chars)).ConvertsAs .int64 lowNumeral.toRat) ∧
    smallNumeral.toRat ≠ 0 ∧
      (text (String.ofList smallNumeral.chars)).convert .bool = .ok (.bool false) := by
  have hread : integerOfText? (String.ofList lowNumeral.chars) = some (-9223372036854775808) := by
    decide +kernel
  have hvalue : lowNumeral.toRat = (-9223372036854775809 : Int) := by decide +kernel
  have hfalse : truthOfText (String.ofList smallNumeral.chars) = false := by decide +kernel
  have hconverted : (text (String.ofList lowNumeral.chars)).convert .int64 =
      .ok (int64 Int64.minValue) := by
    rw [Holds.text.convert_integer rfl, hread]
    rfl
  refine ⟨⟨by rw [hvalue]; norm_num, hconverted, fun h => ?_⟩, by decide +kernel, ?_⟩
  · unfold ConvertsAs at h
    rw [hvalue, truncation_intCast, if_neg (by decide), hconverted] at h
    obtain ⟨target, h⟩ := h
    cases h
  · rw [Holds.text.convert_bool, hfalse]

end Value

end RecordMapper
