import Mathlib.Data.List.TakeWhile
import RecordMapper.Decimal.Reader
import RecordMapper.Proofs.Numeral
import RecordMapper.Proofs.Text.Blank

/-!
# Decimals that are read back

The text of a decimal has all its places and never more digits than 96 bits hold, so the scan takes
every digit and has nothing to round. The decimal that is read has the same mantissa and the same
scale; its sign is the same too, unless it is zero.
-/

set_option autoImplicit false

namespace RecordMapper.Decimal

open Numeral

variable {negative : Bool} {s : Scan} {digits : List Nat} {rest : List Char}

@[simp] theorem mantissa_foldl_push (s : Scan) (digits : List Nat) :
    (digits.foldl Scan.push s).mantissa = s.mantissa * 10 ^ digits.length + value 10 digits := by
  induction digits generalizing s with
  | nil => simp [value]
  | cons d digits ih =>
    rw [List.foldl_cons, ih, value_cons, List.length_cons, Scan.push]
    ring

@[simp] theorem pointed_foldl_push (s : Scan) (digits : List Nat) :
    (digits.foldl Scan.push s).pointed = s.pointed := by
  induction digits generalizing s with
  | nil => rfl
  | cons d digits ih => rw [List.foldl_cons, ih, Scan.push]

theorem started_foldl_push (s : Scan) (hne : digits ≠ []) :
    (digits.foldl Scan.push s).started = true := by
  cases digits using List.reverseRecOn with
  | nil => exact absurd rfl hne
  | append_singleton digits d => rw [List.foldl_append, List.foldl_cons, List.foldl_nil, Scan.push]

/-- Places are counted behind the point only. -/
theorem scale_foldl_push (digits : List Nat) (hscale : s.pointed = false → s.scale = 0) :
    (digits.foldl Scan.push s).scale = if s.pointed then s.scale + digits.length else 0 := by
  induction digits generalizing s with
  | nil =>
    cases hpointed : s.pointed with
    | true => rfl
    | false => exact hscale hpointed
  | cons d digits ih =>
    have hpush : (s.push d).pointed = s.pointed := rfl
    rw [List.foldl_cons, ih (s := s.push d) fun h => by rw [Scan.push, if_neg (by simp [← hpush, h])],
      hpush]
    cases hpointed : s.pointed with
    | true =>
      simp only [Scan.push, hpointed, if_true, List.length_cons]
      omega
    | false => rfl

/-- Digits are taken as long as they fit, and then no earlier one was too much. -/
theorem scan_chars (hdigits : ∀ d ∈ digits, d < 10)
    (hmantissa : (digits.foldl Scan.push s).mantissa < Nat.pow 2 96)
    (hplaces : s.pointed = true → s.scale + digits.length ≤ 28) :
    scan negative s (chars digits ++ rest) = scan negative (digits.foldl Scan.push s) rest := by
  induction digits generalizing s with
  | nil => rfl
  | cons d digits ih =>
    have hroom : s.hasRoom d = true := by
      have hfinal := mantissa_foldl_push (s.push d) digits
      have hpush : (s.push d).mantissa = s.mantissa * 10 + d := rfl
      rw [List.foldl_cons, hfinal, hpush] at hmantissa
      have hone : 1 ≤ 10 ^ digits.length := Nat.one_le_pow _ _ (by decide)
      have hle : s.mantissa * 10 + d ≤ (s.mantissa * 10 + d) * 10 ^ digits.length :=
        Nat.le_mul_of_pos_right _ hone
      have hlt : s.mantissa * 10 + d < Nat.pow 2 96 := by omega
      rw [Scan.hasRoom, decide_eq_true hlt, Bool.true_and, Bool.not_eq_true', Bool.and_eq_false_iff]
      rw [List.length_cons] at hplaces
      cases hpointed : s.pointed with
      | false => exact .inl rfl
      | true =>
        have hle := hplaces hpointed
        exact .inr (by rw [beq_eq_false_iff_ne]; omega)
    have hnext : s.pointed = true → (s.push d).scale + digits.length ≤ 28 := by
      intro hpointed
      have hle := hplaces hpointed
      rw [List.length_cons] at hle
      simp only [Scan.push, hpointed, if_true]
      omega
    rw [chars, List.map_cons, List.cons_append, scan,
      digit?_digitChar (by decide) (hdigits d List.mem_cons_self)]
    dsimp only
    rw [if_pos hroom]
    exact ih (fun e he => hdigits e (List.mem_cons_of_mem d he)) hmantissa hnext

theorem scan_point (hpointed : s.pointed = false) :
    scan negative s ('.' :: rest) = scan negative { s with pointed := true } rest := by
  have hpoint : digit? 10 '.' = none := by decide
  rw [scan, hpoint, hpointed]
  rfl

/-- The digits behind the point, with the point. -/
def placeChars (d : Decimal) : List Char :=
  if d.scale = 0 then [] else '.' :: chars (fixed 10 d.scale d.part)

theorem toList_text (d : Decimal) :
    d.text.toList =
      (if d.negative then ['-'] else []) ++ (chars (decimal d.whole) ++ d.placeChars) := by
  rw [text, String.toList_append, String.toList_append, String.toList_ofList, toList_ofNat,
    List.append_assoc]
  split <;> rfl

/-- The digits behind the point, where a scan has come that took those before it. -/
theorem scan_places (d : Decimal) (hne : d.scale ≠ 0) (hpointed : s.pointed = true)
    (hscale : s.scale = 0) (hmantissa : s.mantissa = d.whole) :
    scan negative s (chars (fixed 10 d.scale d.part)) =
      ofParts? (negative && d.mantissa != 0) d.mantissa d.scale := by
  have hpart : ∀ k ∈ fixed 10 d.scale d.part, k < 10 := fun k hk => lt_of_mem_fixed (by decide) hk
  have hlast : ((fixed 10 d.scale d.part).foldl Scan.push s).mantissa = d.mantissa := by
    have hfits : d.part < Nat.pow 10 d.scale := Nat.mod_lt _ (Nat.pow_pos (by decide))
    rw [mantissa_foldl_push, length_fixed, value_fixed, Nat.mod_eq_of_lt hfits, hmantissa]
    exact d.whole_part
  have hplaces : s.pointed = true → s.scale + (fixed 10 d.scale d.part).length ≤ 28 := by
    intro
    rw [length_fixed, hscale, Nat.zero_add]
    exact d.scale_le
  have hcount : ((fixed 10 d.scale d.part).foldl Scan.push s).scale = d.scale := by
    rw [scale_foldl_push _ fun _ => hscale, if_pos hpointed, hscale, length_fixed, Nat.zero_add]
  have hend : fixed 10 d.scale d.part ≠ [] := by
    rw [ne_eq, ← List.length_eq_zero_iff, length_fixed]
    exact hne
  have hread : scan negative s (chars (fixed 10 d.scale d.part) ++ []) = _ :=
    scan_chars hpart (by rw [hlast]; exact d.mantissa_lt) hplaces
  rw [List.append_nil] at hread
  rw [hread, scan, Scan.finish, started_foldl_push s hend, if_pos rfl, hlast, hcount]

/-- What stands for the decimal in a scan of its digits. -/
theorem scan_text (d : Decimal) :
    scan negative {} (chars (decimal d.whole) ++ d.placeChars) =
      ofParts? (negative && d.mantissa != 0) d.mantissa d.scale := by
  have hwhole : ∀ k ∈ decimal d.whole, k < 10 := fun k hk => lt_of_mem_decimal hk
  have hle : d.whole ≤ d.mantissa := Nat.div_le_self _ _
  have hfirst : ((decimal d.whole).foldl Scan.push {}).mantissa = d.whole := by
    rw [mantissa_foldl_push, value_decimal]
    exact (Nat.add_comm _ _).trans (by simp)
  have hstarted := started_foldl_push {} (decimal_ne_nil d.whole)
  have hscale := scale_foldl_push (s := {}) (decimal d.whole) fun _ => rfl
  have hpointed := pointed_foldl_push {} (decimal d.whole)
  rw [scan_chars hwhole (by rw [hfirst]; exact Nat.lt_of_le_of_lt hle d.mantissa_lt)
    fun h => absurd h Bool.false_ne_true]
  generalize (decimal d.whole).foldl Scan.push {} = s at *
  unfold placeChars
  by_cases hzero : d.scale = 0
  · have hsame : d.whole = d.mantissa := by rw [whole, hzero]; exact Nat.div_one _
    rw [if_pos hzero, scan, Scan.finish, hstarted, if_pos rfl, hfirst, hsame, hscale, hzero]
    rfl
  · rw [if_neg hzero, scan_point hpointed]
    exact scan_places d hzero rfl hscale hfirst

theorem isDigit_of_mem_text {d : Decimal} {c : Char} (hc : c ∈ d.text.toList) :
    c = '-' ∨ c = '.' ∨ isDigit c = true := by
  rw [toList_text] at hc
  rcases List.mem_append.mp hc with hc | hc
  · split at hc
    · exact .inl (List.mem_singleton.mp hc)
    · cases hc
  · rcases List.mem_append.mp hc with hc | hc
    · exact .inr (.inr (isDigit_of_mem_chars (fun _ hd => lt_of_mem_decimal hd) hc))
    · unfold placeChars at hc
      split at hc
      · cases hc
      · rcases List.mem_cons.mp hc with rfl | hc
        · exact .inr (.inl rfl)
        · exact .inr (.inr (isDigit_of_mem_chars (fun _ hd => lt_of_mem_fixed (by decide) hd) hc))

theorem ofPlain?_of_isDigit {c : Char} {cs : List Char} (h : isDigit c = true) :
    ofPlain? (c :: cs) = scan false {} (c :: cs) := by
  unfold ofPlain?
  split
  · next heq =>
    rw [(List.cons.inj heq).1] at h
    cases h
  · next heq =>
    rw [(List.cons.inj heq).1] at h
    cases h
  · rfl

theorem ofPlain?_text (d : Decimal) :
    ofPlain? d.text.toList = ofParts? (d.negative && d.mantissa != 0) d.mantissa d.scale := by
  rw [toList_text]
  cases hnegative : d.negative with
  | true =>
    rw [if_pos rfl, List.singleton_append, ofPlain?, scan_text]
  | false =>
    rw [if_neg Bool.false_ne_true, List.nil_append, ← scan_text]
    cases hcs : chars (decimal d.whole) with
    | nil => exact absurd (chars_eq_nil_iff.mp hcs) (decimal_ne_nil _)
    | cons c cs =>
      exact ofPlain?_of_isDigit
        (isDigit_of_mem_chars (fun _ hd => lt_of_mem_decimal hd) (hcs ▸ List.mem_cons_self))

/-- The decimal without the sign of a negative zero. -/
def withoutZeroSign (d : Decimal) : Decimal :=
  { d with negative := d.negative && d.mantissa != 0 }

@[simp] theorem same_withoutZeroSign (d : Decimal) : d.withoutZeroSign.same d = true := by
  rw [same, decide_eq_true_eq, toRat, toRat, withoutZeroSign]
  by_cases hzero : d.mantissa = 0
  · simp [hzero]
  · simp [hzero]

@[simp] theorem ofText?_text (d : Decimal) : ofText? d.text.toList = some d.withoutZeroSign := by
  have hmark : ∀ c ∈ d.text.toList, (!(decide (c = 'e') || decide (c = 'E'))) = true := by
    intro c hc
    rw [Bool.not_eq_true', Bool.or_eq_false_iff, decide_eq_false_iff_not, decide_eq_false_iff_not]
    constructor
    · rintro rfl
      rcases isDigit_of_mem_text hc with h | h | h <;> exact absurd h (by decide)
    · rintro rfl
      rcases isDigit_of_mem_text hc with h | h | h <;> exact absurd h (by decide)
  have hdrop := List.dropWhile_eq_nil_iff.mpr hmark
  have htake := List.takeWhile_eq_self_iff.mpr hmark
  rw [ofText?]
  dsimp only
  rw [hdrop, htake, ofPlain?_text, ofParts?, dif_pos d.mantissa_lt, dif_pos d.scale_le]
  rfl

theorem isTrimmed_text (d : Decimal) : Text.IsTrimmed d.text.toList := by
  refine .of_forall (fun h => ?_) fun c hc => ?_
  · rw [toList_text] at h
    have hdigits := (List.append_eq_nil_iff.mp (List.append_eq_nil_iff.mp h).2).1
    exact decimal_ne_nil _ (chars_eq_nil_iff.mp hdigits)
  · rcases isDigit_of_mem_text hc with rfl | rfl | h
    · rfl
    · rfl
    · exact isBlank_of_isDigit h

end RecordMapper.Decimal
