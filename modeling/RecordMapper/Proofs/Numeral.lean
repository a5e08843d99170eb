import Mathlib.Data.List.Induction
import Mathlib.Tactic.Ring
import RecordMapper.Numeral
import RecordMapper.Proofs.Text.Blank

/-!
# Numerals that are read back

The characters of a digit list are read as the digits, and the numeral of a number as the number.
Reading stops where the digits end, so what is behind them does not matter.
-/

set_option autoImplicit false

namespace RecordMapper.Numeral

theorem isDigit_digitChar {d : Nat} (h : d < 10) : isDigit d.digitChar = true := by
  have hall : ∀ d < 10, isDigit (Nat.digitChar d) = true := by decide
  exact hall d h

theorem digit?_digitChar {base d : Nat} (hbase : base ≤ 16) (h : d < base) :
    digit? base d.digitChar = some d := by
  have hall : ∀ d < 16, digit? 16 (Nat.digitChar d) = some d := by decide
  obtain ⟨hfound, -⟩ := Option.filter_eq_some_iff.mp (hall d (by omega))
  exact Option.filter_eq_some_iff.mpr ⟨hfound, decide_eq_true h⟩

theorem isBlank_of_isDigit {c : Char} (h : isDigit c = true) : Text.isBlank c = false := by
  rw [isDigit, Bool.and_eq_true, decide_eq_true_eq, decide_eq_true_eq] at h
  have hlow : 48 ≤ c.toNat := h.1
  have hhigh : c.toNat ≤ 57 := h.2
  rw [Bool.eq_false_iff]
  intro hblank
  simp [Text.isBlank, Text.blankRanges] at hblank
  omega

theorem isDigit_of_mem_chars {digits : List Nat} (h : ∀ d ∈ digits, d < 10) {c : Char}
    (hc : c ∈ chars digits) : isDigit c = true := by
  obtain ⟨d, hd, rfl⟩ := List.mem_map.mp hc
  exact isDigit_digitChar (h d hd)

@[simp] theorem length_chars (digits : List Nat) : (chars digits).length = digits.length :=
  List.length_map _

theorem chars_eq_nil_iff {digits : List Nat} : chars digits = [] ↔ digits = [] :=
  List.map_eq_nil_iff

/-- The digits in front of something else are told apart from it. -/
theorem takeWhile_isDigit_append {digits rest : List Char}
    (hdigits : ∀ c ∈ digits, isDigit c = true)
    (hrest : ∀ c ∈ rest.head?, isDigit c = false) :
    (digits ++ rest).takeWhile isDigit = digits ∧
      (digits ++ rest).dropWhile isDigit = rest := by
  rw [List.takeWhile_append_of_pos hdigits, List.dropWhile_append_of_pos hdigits]
  cases rest with
  | nil => simp
  | cons c cs =>
    have hc : isDigit c = false := hrest c rfl
    simp [hc]

theorem value_cons (base d : Nat) (digits : List Nat) :
    value base (d :: digits) = d * base ^ digits.length + value base digits := by
  induction digits using List.reverseRecOn generalizing d with
  | nil => simp [value]
  | append_singleton digits last ih =>
    have hcons : value base (d :: (digits ++ [last])) =
        value base (d :: digits) * base + last := by
      rw [← List.cons_append, value_append_singleton]
    rw [hcons, value_append_singleton, ih, List.length_append, List.length_singleton]
    ring

theorem value_append (base : Nat) (digits others : List Nat) :
    value base (digits ++ others) = value base digits * base ^ others.length + value base others := by
  induction digits with
  | nil => simp [value]
  | cons d digits ih =>
    rw [List.cons_append, value_cons, value_cons, ih, List.length_append]
    ring

@[simp] theorem value_replicate_zero (base n : Nat) : value base (List.replicate n 0) = 0 := by
  induction n with
  | zero => rfl
  | succ n ih => rw [List.replicate_succ, value_cons, ih, Nat.zero_mul]

theorem value_lt {base : Nat} {digits : List Nat} (h : ∀ d ∈ digits, d < base) :
    value base digits < base ^ digits.length := by
  induction digits with
  | nil => simp [value]
  | cons d digits ih =>
    have hd : d + 1 ≤ base := h d List.mem_cons_self
    have hrest := ih fun e he => h e (List.mem_cons_of_mem d he)
    rw [value_cons, List.length_cons, pow_succ]
    calc d * base ^ digits.length + value base digits
        < d * base ^ digits.length + base ^ digits.length := by omega
      _ = (d + 1) * base ^ digits.length := by ring
      _ ≤ base * base ^ digits.length := Nat.mul_le_mul_right _ hd
      _ = base ^ digits.length * base := Nat.mul_comm _ _

theorem lt_of_mem_fixed {base width n d : Nat} (hbase : 0 < base) (h : d ∈ fixed base width n) :
    d < base := by
  induction width generalizing n with
  | zero => cases h
  | succ width ih =>
    rcases List.mem_append.mp h with h | h
    · exact ih h
    · obtain rfl := List.mem_singleton.mp h
      exact Nat.mod_lt n hbase

theorem decimal_ne_nil (n : Nat) : decimal n ≠ [] := by
  rw [decimal]
  split <;> simp

theorem lt_pow_length_decimal (n : Nat) : n < 10 ^ (decimal n).length := by
  have hlt := value_lt fun d hd => lt_of_mem_decimal (n := n) (d := d) hd
  rwa [value_decimal] at hlt

/-- The leading digit is not zero. -/
theorem pow_length_decimal_le {n : Nat} (hn : n ≠ 0) : 10 ^ ((decimal n).length - 1) ≤ n := by
  fun_induction decimal n with
  | case1 n h =>
    rw [List.length_singleton]
    exact Nat.one_le_iff_ne_zero.mpr hn
  | case2 n h ih =>
    have hle := ih (by omega)
    have hpos : 0 < (decimal (n / 10)).length := List.length_pos_iff.mpr (decimal_ne_nil _)
    have hsucc : (decimal (n / 10)).length = (decimal (n / 10)).length - 1 + 1 := by omega
    rw [List.length_append, List.length_singleton, Nat.add_sub_cancel, hsucc, pow_succ]
    omega

theorem length_decimal_le {n width : Nat} (hwidth : 0 < width) (h : n < 10 ^ width) :
    (decimal n).length ≤ width := by
  rcases Nat.eq_zero_or_pos n with rfl | hn
  · have hzero : decimal 0 = [0] := by rw [decimal, if_pos (by decide)]
    rw [hzero, List.length_singleton]
    exact hwidth
  · have hlt : (decimal n).length - 1 < width := by
      rw [← Nat.pow_lt_pow_iff_right (by decide : 1 < 10)]
      exact (pow_length_decimal_le hn.ne').trans_lt h
    omega

theorem mapM_digit?_chars {base : Nat} {digits : List Nat} (hbase : base ≤ 16)
    (h : ∀ d ∈ digits, d < base) : (chars digits).mapM (digit? base) = some digits := by
  induction digits with
  | nil => rfl
  | cons d rest ih =>
    have hrest := ih fun x hx => h x (List.mem_cons_of_mem d hx)
    rw [chars] at hrest
    rw [chars, List.map_cons, List.mapM_cons, digit?_digitChar hbase (h d List.mem_cons_self),
      hrest]
    rfl

theorem digits?_chars {base : Nat} {digits : List Nat} (hbase : base ≤ 16) (hne : digits ≠ [])
    (h : ∀ d ∈ digits, d < base) : digits? base (chars digits) = some digits := by
  have hchars : (chars digits).isEmpty = false := by
    rw [List.isEmpty_eq_false_iff, ne_eq, chars_eq_nil_iff]
    exact hne
  rw [digits?, hchars, mapM_digit?_chars hbase h]
  rfl

theorem natural?_chars {digits : List Nat} (hne : digits ≠ []) (h : ∀ d ∈ digits, d < 10) :
    natural? (chars digits) = some (value 10 digits) := by
  rw [natural?, digits?_chars (by decide) hne h]
  rfl

theorem toList_ofNat (n : Nat) : (ofNat n).toList = chars (decimal n) := String.toList_ofList

theorem isDigit_of_mem_ofNat {n : Nat} {c : Char} (h : c ∈ (ofNat n).toList) :
    isDigit c = true := by
  rw [toList_ofNat] at h
  exact isDigit_of_mem_chars (fun _ hd => lt_of_mem_decimal hd) h

@[simp] theorem natural?_ofNat (n : Nat) : natural? (ofNat n).toList = some n := by
  rw [toList_ofNat, natural?_chars (decimal_ne_nil n) fun _ hd => lt_of_mem_decimal hd,
    value_decimal]

/-- Text that begins with a digit has no sign. -/
theorem eq_of_toList_ofNat {n k : Nat} (h : (ofNat n).toList = (ofNat k).toList) : n = k := by
  have hread := natural?_ofNat n
  rw [h, natural?_ofNat] at hread
  exact (Option.some.inj hread).symm

theorem integer?_of_isDigit {c : Char} {cs : List Char} (h : isDigit c = true) :
    integer? (c :: cs) = (natural? (c :: cs)).map fun n => (n : Int) := by
  unfold integer?
  split
  · next heq =>
    rw [(List.cons.inj heq).1] at h
    cases h
  · next heq =>
    rw [(List.cons.inj heq).1] at h
    cases h
  · rfl

@[simp] theorem integer?_ofNat (n : Nat) : integer? (ofNat n).toList = some (n : Int) := by
  have hread := natural?_ofNat n
  cases hcs : (ofNat n).toList with
  | nil => exact absurd (chars_eq_nil_iff.mp ((toList_ofNat n).symm.trans hcs)) (decimal_ne_nil n)
  | cons c cs =>
    rw [hcs] at hread
    rw [integer?_of_isDigit (isDigit_of_mem_ofNat (hcs ▸ List.mem_cons_self)), hread]
    rfl

@[simp] theorem integer?_ofInt (n : Int) : integer? (ofInt n).toList = some n := by
  unfold ofInt
  split
  · next hneg =>
    have hsign : "-".toList = ['-'] := rfl
    rw [String.toList_append, hsign, List.singleton_append, integer?, natural?_ofNat]
    exact congrArg some (by omega : -(n.natAbs : Int) = n)
  · next hneg =>
    rw [integer?_ofNat]
    exact congrArg some (by omega)

theorem isTrimmed_ofNat (n : Nat) : Text.IsTrimmed (ofNat n).toList := by
  refine .of_forall (fun h => ?_) fun c hc => isBlank_of_isDigit (isDigit_of_mem_ofNat hc)
  rw [toList_ofNat, chars_eq_nil_iff] at h
  exact decimal_ne_nil n h

theorem isTrimmed_ofInt (n : Int) : Text.IsTrimmed (ofInt n).toList := by
  unfold ofInt
  split
  · have hsign : Text.IsTrimmed ['-'] :=
      .of_forall (List.cons_ne_nil _ _) (List.forall_mem_singleton.mpr (by decide))
    rw [String.toList_append]
    exact hsign.append [] (isTrimmed_ofNat _)
  · exact isTrimmed_ofNat _

end RecordMapper.Numeral
