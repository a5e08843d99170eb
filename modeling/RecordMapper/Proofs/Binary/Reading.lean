import RecordMapper.Binary.Reader
import RecordMapper.Proofs.Binary.Nearest
import RecordMapper.Proofs.Numeral

/-!
# Numerals that are read as binary numbers

A decimal numeral is a sign or none, digits with or without a point among them, and a power of ten
or none. Every one is read, and as the number nearest to the rational that it denotes; numerals far
outside the range of 64 bits are not computed, but what they are taken for is the nearest number as
well.
-/

set_option autoImplicit false

namespace RecordMapper

inductive Sign
  | absent
  | plus
  | minus
deriving DecidableEq

namespace Sign

def chars : Sign → List Char
  | absent => []
  | plus => ['+']
  | minus => ['-']

def isMinus : Sign → Bool
  | minus => true
  | absent | plus => false

def apply (sign : Sign) (n : Nat) : Int := if sign.isMinus then -(n : Int) else n

end Sign

/-- The power of ten at the end of a numeral. -/
structure WrittenPower where
  mark : Char
  sign : Sign
  digits : List Nat
  isMark : mark = 'e' ∨ mark = 'E'
  digits_ne : digits ≠ []
  digits_lt : ∀ d ∈ digits, d < 10

/-- A decimal numeral; there is a digit before the point or behind it. -/
structure WrittenNumeral where
  sign : Sign
  whole : List Nat
  part : Option (List Nat)
  power : Option WrittenPower
  digits_ne : whole ++ part.getD [] ≠ []
  digits_lt : ∀ d ∈ whole ++ part.getD [], d < 10

namespace WrittenPower

def chars (p : WrittenPower) : List Char := p.mark :: (p.sign.chars ++ Numeral.chars p.digits)

def exponent (p : WrittenPower) : Int := p.sign.apply (Numeral.value 10 p.digits)

end WrittenPower

namespace WrittenNumeral

def partChars (t : WrittenNumeral) : List Char :=
  match t.part with
  | none => []
  | some digits => '.' :: Numeral.chars digits

def powerChars (t : WrittenNumeral) : List Char :=
  match t.power with
  | none => []
  | some p => p.chars

/-- The numeral without its sign. -/
def unsignedChars (t : WrittenNumeral) : List Char :=
  Numeral.chars t.whole ++ (t.partChars ++ t.powerChars)

def chars (t : WrittenNumeral) : List Char := t.sign.chars ++ t.unsignedChars

/-- The digits as an integer, and the power of ten that it is multiplied with. -/
def numeral (t : WrittenNumeral) : DecimalNumeral where
  digits := t.whole ++ t.part.getD []
  exponent := -(t.part.getD []).length + (t.power.map WrittenPower.exponent).getD 0

/-- The rational that the numeral denotes. -/
def toRat (t : WrittenNumeral) : Rat :=
  Binary.signed t.sign.isMinus
    ((Numeral.value 10 t.numeral.digits : Rat) * (10 : Rat) ^ t.numeral.exponent)

variable (t : WrittenNumeral)

theorem whole_lt : ∀ d ∈ t.whole, d < 10 := fun d hd =>
  t.digits_lt d (List.mem_append_left _ hd)

theorem part_lt {digits : List Nat} (h : t.part = some digits) : ∀ d ∈ digits, d < 10 := by
  intro d hd
  refine t.digits_lt d (List.mem_append_right _ ?_)
  rw [h]
  exact hd

theorem powerChars_head : ∀ c ∈ t.powerChars.head?, Numeral.isDigit c = false ∧ c ≠ '.' := by
  intro c hc
  unfold powerChars at hc
  cases hpower : t.power with
  | none =>
    rw [hpower] at hc
    cases hc
  | some p =>
    rw [hpower] at hc
    obtain rfl : p.mark = c := Option.some.inj hc
    rcases p.isMark with h | h <;> rw [h] <;> decide

/-- What a numeral without sign begins with. -/
def heads : List Char := '.' :: (List.range 10).map Nat.digitChar

theorem exists_unsignedChars_eq_cons : ∃ c ∈ heads, ∃ rest, t.unsignedChars = c :: rest := by
  unfold unsignedChars
  cases hwhole : t.whole with
  | cons d digits =>
    have hd : d < 10 := t.whole_lt d (by rw [hwhole]; exact List.mem_cons_self)
    exact ⟨_, List.mem_cons_of_mem _ (List.mem_map_of_mem (List.mem_range.mpr hd)), _, rfl⟩
  | nil =>
    unfold partChars
    cases hpart : t.part with
    | some digits => exact ⟨_, List.mem_cons_self, _, rfl⟩
    | none =>
      have hne := t.digits_ne
      rw [hwhole, hpart] at hne
      exact absurd rfl hne

theorem exists_chars_eq_cons : ∃ c ∈ '+' :: '-' :: heads, ∃ rest, t.chars = c :: rest := by
  obtain ⟨c, hc, rest, hcons⟩ := t.exists_unsignedChars_eq_cons
  unfold chars
  cases t.sign with
  | plus => exact ⟨_, List.mem_cons_self, _, rfl⟩
  | minus => exact ⟨_, List.mem_cons_of_mem _ List.mem_cons_self, _, rfl⟩
  | absent => exact ⟨c, List.mem_cons_of_mem _ (List.mem_cons_of_mem _ hc), rest, hcons⟩

theorem ne_sign_of_mem_heads {c : Char} (hc : c ∈ heads) : c ≠ '-' ∧ c ≠ '+' := by
  have hall : heads.all (fun c => c ≠ '-' ∧ c ≠ '+') = true := by decide
  exact of_decide_eq_true (List.all_eq_true.mp hall c hc)

theorem filterMap_digit?_chars {digits : List Nat} (h : ∀ d ∈ digits, d < 10) :
    (Numeral.chars digits).filterMap (Numeral.digit? 10) = digits := by
  induction digits with
  | nil => rfl
  | cons d rest ih =>
    have hd : Numeral.digit? 10 d.digitChar = some d :=
      Numeral.digit?_digitChar (by decide) (h d List.mem_cons_self)
    have hrest := ih fun x hx => h x (List.mem_cons_of_mem d hx)
    unfold Numeral.chars at hrest ⊢
    rw [List.map_cons, List.filterMap_cons, hd, hrest]

theorem integer?_signed (sign : Sign) {digits : List Nat} (hne : digits ≠ [])
    (h : ∀ d ∈ digits, d < 10) :
    Numeral.integer? (sign.chars ++ Numeral.chars digits) =
      some (sign.apply (Numeral.value 10 digits)) := by
  have hread := Numeral.natural?_chars hne h
  cases sign with
  | minus =>
    rw [Sign.chars, List.singleton_append, Numeral.integer?, hread]
    rfl
  | plus =>
    rw [Sign.chars, List.singleton_append, Numeral.integer?, hread]
    rfl
  | absent =>
    cases digits with
    | nil => exact absurd rfl hne
    | cons d rest =>
      have hdigit : Numeral.isDigit d.digitChar = true :=
        Numeral.isDigit_digitChar (h d List.mem_cons_self)
      have hread : Numeral.natural? (d.digitChar :: Numeral.chars rest) =
          some (Numeral.value 10 (d :: rest)) := hread
      change Numeral.integer? (d.digitChar :: Numeral.chars rest) = _
      rw [Numeral.integer?_of_isDigit hdigit, hread]
      rfl

/-- The digits in front of the power are told apart from it. -/
theorem mantissa_unsignedChars :
    DecimalNumeral.mantissa t.unsignedChars =
      (⟨t.whole ++ t.part.getD [], -(t.part.getD []).length⟩, t.powerChars) := by
  have hdigits (digits : List Nat) (h : ∀ d ∈ digits, d < 10) (c : Char)
      (hc : c ∈ Numeral.chars digits) : Numeral.isDigit c = true :=
    Numeral.isDigit_of_mem_chars h hc
  have hhead : ∀ c ∈ (t.partChars ++ t.powerChars).head?, Numeral.isDigit c = false := by
    intro c hc
    unfold partChars at hc
    cases hpart : t.part with
    | none =>
      rw [hpart] at hc
      exact (t.powerChars_head c hc).1
    | some digits =>
      rw [hpart] at hc
      obtain rfl : '.' = c := Option.some.inj hc
      rfl
  obtain ⟨htake, hdrop⟩ := Numeral.takeWhile_isDigit_append (hdigits t.whole t.whole_lt) hhead
  unfold DecimalNumeral.mantissa unsignedChars
  dsimp only
  rw [htake, hdrop, filterMap_digit?_chars t.whole_lt]
  unfold partChars
  cases hpart : t.part with
  | some digits =>
    obtain ⟨htake, hdrop⟩ := Numeral.takeWhile_isDigit_append
      (hdigits digits (t.part_lt hpart)) fun c hc => (t.powerChars_head c hc).1
    generalize hafter : Numeral.chars digits ++ t.powerChars = after at htake hdrop
    rw [List.cons_append, hafter]
    change (DecimalNumeral.mk (t.whole ++ (after.takeWhile Numeral.isDigit).filterMap
      (Numeral.digit? 10)) (-(after.takeWhile Numeral.isDigit).length),
        after.dropWhile Numeral.isDigit) = _
    rw [htake, hdrop, filterMap_digit?_chars (t.part_lt hpart), Numeral.length_chars]
    rfl
  | none =>
    have hpoint := t.powerChars_head
    rw [List.nil_append]
    split
    · next rest heq =>
      rw [heq] at hpoint
      exact absurd rfl (hpoint '.' rfl).2
    · simp

theorem ofChars?_unsignedChars : DecimalNumeral.ofChars? t.unsignedChars = some t.numeral := by
  unfold DecimalNumeral.ofChars?
  rw [mantissa_unsignedChars]
  unfold powerChars numeral
  have hne := t.digits_ne
  generalize t.whole ++ t.part.getD [] = digits at *
  cases digits with
  | nil => exact absurd rfl hne
  | cons d rest =>
    cases t.power with
    | none => simp
    | some p =>
      simp only [WrittenPower.chars, if_pos p.isMark,
        integer?_signed p.sign p.digits_ne p.digits_lt]
      rfl

/-- No numeral is one of the words for what is no finite number. -/
theorem ofUnsigned?_unsignedChars (f : BinaryFormat) (negative : Bool) :
    Binary.ofUnsigned? f negative t.unsignedChars = some (t.numeral.toBinary f negative) := by
  obtain ⟨c, hc, rest, hcons⟩ := t.exists_unsignedChars_eq_cons
  have hall : heads.all (fun c => c.toLower ≠ 'i' ∧ c.toLower ≠ 'n') = true := by decide
  have hlower := of_decide_eq_true (List.all_eq_true.mp hall c hc)
  have hword (first : Char) (letters : List Char) (hfirst : c.toLower ≠ first) :
      String.ofList (t.unsignedChars.map Char.toLower) ≠ String.ofList (first :: letters) := by
    rw [hcons, ne_eq, String.ofList_inj]
    intro h
    exact hfirst (List.cons.inj h).1
  unfold Binary.ofUnsigned?
  split
  · next h => exact absurd h (hword 'i' "nf".toList hlower.1)
  · next h => exact absurd h (hword 'i' "nfinity".toList hlower.1)
  · next h => exact absurd h (hword 'n' "an".toList hlower.2)
  · rw [ofChars?_unsignedChars]
    rfl

theorem ofText?_chars (f : BinaryFormat) :
    Binary.ofText? f t.chars = some (t.numeral.toBinary f t.sign.isMinus) := by
  obtain ⟨c, hc, rest, hcons⟩ := t.exists_unsignedChars_eq_cons
  have hread := t.ofUnsigned?_unsignedChars f
  unfold chars
  cases t.sign with
  | minus => exact hread true
  | plus => exact hread false
  | absent =>
    refine Eq.trans ?_ (hread false)
    change Binary.ofText? f t.unsignedChars = _
    have hsign := ne_sign_of_mem_heads hc
    rw [hcons]
    unfold Binary.ofText?
    split
    · next heq => exact absurd (List.cons.inj heq).1 hsign.1
    · next heq => exact absurd (List.cons.inj heq).1 hsign.2
    · rfl

end WrittenNumeral

namespace DecimalNumeral
variable {n : DecimalNumeral}

theorem toRat_nonneg (n : DecimalNumeral) : 0 ≤ n.toRat := by
  unfold toRat
  positivity

/-- The leading digit stands at the power of ten that the shortcuts of reading go by. -/
theorem toRat_bounds (h : n.coefficient ≠ 0) :
    (10 : Rat) ^ ((Numeral.decimal n.coefficient).length + n.exponent - 1) ≤ n.toRat ∧
      n.toRat < (10 : Rat) ^ ((Numeral.decimal n.coefficient).length + n.exponent) := by
  have hlt := Numeral.lt_pow_length_decimal n.coefficient
  have hle := Numeral.pow_length_decimal_le h
  have hpos : 0 < (Numeral.decimal n.coefficient).length :=
    List.length_pos_iff.mpr (Numeral.decimal_ne_nil _)
  generalize (Numeral.decimal n.coefficient).length = length at *
  have hsplit : ((length : Int) + n.exponent - 1) = ((length - 1 : Nat) : Int) + n.exponent := by
    omega
  unfold toRat
  constructor
  · rw [hsplit, zpow_add₀ (by norm_num), zpow_natCast]
    gcongr
    exact_mod_cast hle
  · rw [zpow_add₀ (by norm_num), zpow_natCast]
    gcongr
    exact_mod_cast hlt

/-- What is not computed is rounded to zero and to infinity. -/
theorem toBinary_double (n : DecimalNumeral) (negative : Bool) :
    n.toBinary .double negative = Binary.round .double negative n.toRat := by
  unfold toBinary
  dsimp only
  split
  · next hsmall =>
    symm
    apply Binary.round_of_le_middle BinaryFormat.isRegular_double negative n.toRat_nonneg
    rw [Binary.middle_zero_double]
    by_cases hzero : n.coefficient = 0
    · rw [toRat, hzero, Nat.cast_zero, zero_mul]
      positivity
    · calc n.toRat ≤ 10 ^ ((Numeral.decimal n.coefficient).length + n.exponent) :=
            (toRat_bounds hzero).2.le
        _ ≤ 10 ^ (-401 : Int) := by
          apply zpow_le_zpow_right₀ (by norm_num)
          have := hsmall.resolve_left hzero
          omega
        _ ≤ 2 ^ (-1075 : Int) := by
          rw [zpow_neg, zpow_neg]
          apply inv_anti₀ (by positivity)
          rw [zpow_ofNat, zpow_ofNat]
          exact_mod_cast (by decide +kernel : 2 ^ 1075 ≤ 10 ^ 401)
  · split
    · next hsmall hlarge =>
      symm
      apply Binary.round_of_limit_le BinaryFormat.isRegular_double negative n.toRat_nonneg
      rw [Binary.limit_double]
      have hzero : n.coefficient ≠ 0 := fun h => hsmall (.inl h)
      calc (2 : Rat) ^ 1024 - 2 ^ 970 ≤ 2 ^ 1024 := sub_le_self _ (by positivity)
        _ ≤ 10 ^ (400 : Int) := by
          rw [zpow_ofNat]
          exact_mod_cast (by decide +kernel : 2 ^ 1024 ≤ 10 ^ 400)
        _ ≤ 10 ^ ((Numeral.decimal n.coefficient).length + n.exponent - 1) := by
          apply zpow_le_zpow_right₀ (by norm_num)
          omega
        _ ≤ n.toRat := (toRat_bounds hzero).1
    · rfl

end DecimalNumeral

namespace WrittenNumeral
variable (t : WrittenNumeral)

theorem abs_toRat : |t.toRat| = t.numeral.toRat :=
  Binary.abs_signed _ t.numeral.toRat_nonneg

/-- Every numeral is read as the nearest number of 64 bits. -/
theorem exists_isNearest : ∃ x : Binary64, Binary.ofText? .double t.chars = some x ∧
    Binary.IsNearest t.toRat x ∧
    (x.isFinite = true ↔ |t.toRat| < 2 ^ 1024 - 2 ^ 970) ∧
    (x.isZero = true ↔ |t.toRat| ≤ (2 : Rat) ^ (-1075 : Int)) := by
  have hregular := BinaryFormat.isRegular_double
  have hnonneg := t.numeral.toRat_nonneg
  refine ⟨_, t.ofText?_chars _, ?_, ?_, ?_⟩
  · rw [DecimalNumeral.toBinary_double]
    exact Binary.isNearest_round hregular t.sign.isMinus hnonneg
  · rw [DecimalNumeral.toBinary_double, abs_toRat, ← Binary.limit_double]
    exact Binary.isFinite_round_iff hregular t.sign.isMinus hnonneg
  · rw [DecimalNumeral.toBinary_double, abs_toRat, ← Binary.middle_zero_double]
    exact Binary.isZero_round_iff hregular t.sign.isMinus hnonneg

/-- Whether the numeral is written with digits only, behind a sign or none. -/
def isPlain : Bool := t.part.isNone && t.power.isNone

theorem integer?_chars_of_isPlain (h : t.isPlain = true) :
    ∃ n : Int, Numeral.integer? t.chars = some n ∧ (n : Rat) = t.toRat := by
  obtain ⟨hpart, hpower⟩ := (Bool.and_eq_true _ _).mp h
  have hpart := Option.isNone_iff_eq_none.mp hpart
  have hpower := Option.isNone_iff_eq_none.mp hpower
  have hne : t.whole ≠ [] := by
    have hne := t.digits_ne
    rwa [hpart, Option.getD_none, List.append_nil] at hne
  refine ⟨t.sign.apply (Numeral.value 10 t.whole), ?_, ?_⟩
  · unfold chars unsignedChars partChars powerChars
    rw [hpart, hpower, List.append_nil, List.append_nil]
    exact integer?_signed t.sign hne t.whole_lt
  · unfold toRat numeral Sign.apply Binary.signed
    rw [hpart, hpower]
    cases t.sign.isMinus <;> simp

theorem mapM_digit?_eq_none {c : Char} {cs : List Char} (hc : c ∈ cs)
    (h : Numeral.digit? 10 c = none) : cs.mapM (Numeral.digit? 10) = none := by
  induction cs with
  | nil => cases hc
  | cons d rest ih =>
    rw [List.mapM_cons]
    rcases List.mem_cons.mp hc with rfl | hrest
    · rw [h]
      rfl
    · rw [ih hrest]
      cases Numeral.digit? 10 d <;> rfl

theorem natural?_unsignedChars (h : t.isPlain = false) :
    Numeral.natural? t.unsignedChars = none := by
  have hmark : ∃ c ∈ t.unsignedChars, Numeral.digit? 10 c = none := by
    unfold unsignedChars partChars powerChars
    unfold isPlain at h
    cases hpart : t.part with
    | some digits => exact ⟨'.', by simp, by decide⟩
    | none =>
      cases hpower : t.power with
      | none =>
        rw [hpart, hpower] at h
        cases h
      | some p =>
        refine ⟨p.mark, by simp [WrittenPower.chars], ?_⟩
        rcases p.isMark with h | h <;> rw [h] <;> decide
  obtain ⟨c, hc, hdigit⟩ := hmark
  unfold Numeral.natural? Numeral.digits?
  rw [mapM_digit?_eq_none hc hdigit]
  split <;> rfl

theorem integer?_chars_of_not_isPlain (h : t.isPlain = false) :
    Numeral.integer? t.chars = none := by
  have hnone := t.natural?_unsignedChars h
  obtain ⟨c, hc, rest, hcons⟩ := t.exists_unsignedChars_eq_cons
  unfold chars
  cases t.sign with
  | minus =>
    rw [Sign.chars, List.singleton_append, Numeral.integer?, hnone]
    rfl
  | plus =>
    rw [Sign.chars, List.singleton_append, Numeral.integer?, hnone]
    rfl
  | absent =>
    have hsign := ne_sign_of_mem_heads hc
    change Numeral.integer? t.unsignedChars = none
    rw [hcons] at hnone ⊢
    unfold Numeral.integer?
    split
    · next heq => exact absurd (List.cons.inj heq).1 hsign.1
    · next heq => exact absurd (List.cons.inj heq).1 hsign.2
    · rw [hnone]
      rfl

theorem isBlank_of_mem_sign {sign : Sign} {c : Char} (hc : c ∈ sign.chars) :
    Text.isBlank c = false := by
  cases sign with
  | absent => cases hc
  | plus | minus =>
    obtain rfl := List.mem_singleton.mp hc
    decide

theorem isBlank_of_mem_digits {digits : List Nat} (h : ∀ d ∈ digits, d < 10) {c : Char}
    (hc : c ∈ Numeral.chars digits) : Text.isBlank c = false :=
  Numeral.isBlank_of_isDigit (Numeral.isDigit_of_mem_chars h hc)

theorem isBlank_of_mem_chars {c : Char} (hc : c ∈ t.chars) : Text.isBlank c = false := by
  unfold chars unsignedChars at hc
  rcases List.mem_append.mp hc with hc | hc
  · exact isBlank_of_mem_sign hc
  rcases List.mem_append.mp hc with hc | hc
  · exact isBlank_of_mem_digits t.whole_lt hc
  rcases List.mem_append.mp hc with hc | hc
  · unfold partChars at hc
    cases hpart : t.part with
    | none =>
      rw [hpart] at hc
      cases hc
    | some digits =>
      rw [hpart] at hc
      rcases List.mem_cons.mp hc with rfl | hc
      · decide
      · exact isBlank_of_mem_digits (t.part_lt hpart) hc
  · unfold powerChars at hc
    cases hpower : t.power with
    | none =>
      rw [hpower] at hc
      cases hc
    | some p =>
      rw [hpower] at hc
      rcases List.mem_cons.mp hc with rfl | hc
      · rcases p.isMark with h | h <;> rw [h] <;> decide
      rcases List.mem_append.mp hc with hc | hc
      · exact isBlank_of_mem_sign hc
      · exact isBlank_of_mem_digits p.digits_lt hc

theorem isTrimmed_chars : Text.IsTrimmed t.chars := by
  refine .of_forall (fun h => ?_) fun c hc => t.isBlank_of_mem_chars hc
  obtain ⟨c, -, rest, hcons⟩ := t.exists_chars_eq_cons
  rw [hcons] at h
  cases h

end WrittenNumeral

end RecordMapper
