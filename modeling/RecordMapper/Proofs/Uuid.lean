import RecordMapper.Proofs.Numeral
import RecordMapper.Proofs.Text.Blank
import RecordMapper.Uuid

/-!
# Identifiers that are read back

An identifier survives both of its written forms: the sixteen bytes, and the 32 hexadecimal digits
in five groups. The text begins with a digit, so it is taken neither for an identifier in braces
nor for one behind `urn:uuid:`, and it is longer than the form without hyphens.
-/

set_option autoImplicit false

namespace RecordMapper.Uuid

open Numeral

@[simp] theorem ofNat_toNat (u : Uuid) : ofNat u.bits.toNat = u :=
  congrArg Uuid.mk (BitVec.ofNat_toNat 128 u.bits)

@[simp] theorem length_bytes (u : Uuid) : u.bytes.length = 16 := by
  rw [bytes, List.length_map, length_fixed]

theorem map_toNat_bytes (u : Uuid) : u.bytes.map UInt8.toNat = fixed 256 16 u.bits.toNat := by
  rw [bytes, List.map_map]
  conv_rhs => rw [← List.map_id (fixed 256 16 u.bits.toNat)]
  refine List.map_congr_left fun d hd => ?_
  have hlt : d < 256 := lt_of_mem_fixed (by decide) hd
  exact UInt8.toNat_ofNat_of_lt' hlt

@[simp] theorem ofBytes?_bytes (u : Uuid) : ofBytes? u.bytes = some u := by
  have hbits : u.bits.toNat % Nat.pow 256 16 = u.bits.toNat := Nat.mod_eq_of_lt u.bits.isLt
  rw [ofBytes?, if_pos u.length_bytes, map_toNat_bytes, value_fixed, hbits, ofNat_toNat]

def digitChars (u : Uuid) : List Char := chars (fixed 16 32 u.bits.toNat)

@[simp] theorem length_digitChars (u : Uuid) : u.digitChars.length = 32 := by
  rw [digitChars, length_chars, length_fixed]

@[simp] theorem ofDigits?_digitChars (u : Uuid) : ofDigits? u.digitChars = some u := by
  have hbits : u.bits.toNat % Nat.pow 16 32 = u.bits.toNat := Nat.mod_eq_of_lt u.bits.isLt
  have hne : fixed 16 32 u.bits.toNat ≠ [] := by
    intro h
    have hlength := length_fixed 16 32 u.bits.toNat
    rw [h] at hlength
    exact absurd hlength (by decide)
  rw [ofDigits?, if_pos u.length_digitChars, digitChars,
    digits?_chars (by decide) hne fun d hd => lt_of_mem_fixed (by decide) hd, Option.map_some,
    value_fixed, hbits, ofNat_toNat]

/-- What no hexadecimal digit is: a hyphen, a brace, a blank or the first letter of `urn`. -/
theorem of_mem_digitChars {u : Uuid} {c : Char} (hc : c ∈ u.digitChars) :
    c ≠ '-' ∧ c ≠ '\x7b' ∧ c.toLower ≠ 'u' ∧ Text.isBlank c = false := by
  have hall : ∀ d < 16, Nat.digitChar d ≠ '-' ∧ Nat.digitChar d ≠ '\x7b' ∧
      (Nat.digitChar d).toLower ≠ 'u' ∧ Text.isBlank (Nat.digitChar d) = false := by decide
  obtain ⟨d, hd, rfl⟩ := List.mem_map.mp hc
  exact hall d (lt_of_mem_fixed (by decide) hd)

theorem intercalate_groups (cs : List Char) : List.intercalate ['-'] (groups cs) =
    cs.take 8 ++ '-' :: ((cs.drop 8).take 4 ++ '-' :: ((cs.drop 12).take 4 ++
      '-' :: ((cs.drop 16).take 4 ++ '-' :: cs.drop 20))) := by
  simp [groups, List.intercalate, List.intersperse]

@[simp] theorem flatten_groups (cs : List Char) : (groups cs).flatten = cs := by
  have hsplit (start n : Nat) : (cs.drop start).take n ++ cs.drop (start + n) = cs.drop start := by
    rw [← List.drop_drop, List.take_append_drop]
  simp only [groups, List.flatten_cons, List.flatten_nil, List.append_nil]
  rw [hsplit 16 4, hsplit 12 4, hsplit 8 4, List.take_append_drop]

theorem toList_text (u : Uuid) : u.text.toList = List.intercalate ['-'] (groups u.digitChars) := by
  rw [text, String.toList_ofList, digitChars]

/-- What stands between hyphens has none. -/
theorem filter_intercalate {parts : List (List Char)} (h : ∀ c ∈ parts.flatten, c ≠ '-') :
    (List.intercalate ['-'] parts).filter (· ≠ '-') = parts.flatten := by
  have hpart {part : List Char} (hpart : ∀ c ∈ part, c ≠ '-') : part.filter (· ≠ '-') = part :=
    List.filter_eq_self.mpr fun c hc => decide_eq_true (hpart c hc)
  induction parts using List.twoStepInduction with
  | nil => rfl
  | singleton part =>
    rw [List.flatten_singleton] at h
    rw [List.intercalate_singleton, List.flatten_singleton, hpart h]
  | cons_cons part next others _ ih =>
    rw [List.flatten_cons] at h
    have hfirst := hpart fun c hc => h c (List.mem_append_left _ hc)
    have hrest := ih next fun c hc => h c (List.mem_append_right _ hc)
    have hhyphen : ['-'].filter (· ≠ '-') = [] := rfl
    rw [List.intercalate_cons_cons, List.filter_append, List.filter_append, hfirst, hrest, hhyphen,
      List.append_nil]
    rfl

theorem filter_text (u : Uuid) : u.text.toList.filter (· ≠ '-') = u.digitChars := by
  have hdigits : ∀ c ∈ (groups u.digitChars).flatten, c ≠ '-' := by
    rw [flatten_groups]
    exact fun c hc => (of_mem_digitChars hc).1
  rw [toList_text, filter_intercalate hdigits, flatten_groups]

@[simp] theorem length_text (u : Uuid) : u.text.toList.length = 36 := by
  have hlength := u.length_digitChars
  rw [toList_text, intercalate_groups]
  simp [hlength]

/-- The text begins with the first digit. -/
theorem exists_text_eq_cons (u : Uuid) : ∃ c rest, u.text.toList = c :: rest ∧ c ∈ u.digitChars := by
  have hlength := u.length_digitChars
  rw [toList_text, intercalate_groups]
  cases hcs : u.digitChars with
  | nil =>
    rw [hcs] at hlength
    cases hlength
  | cons c cs => exact ⟨c, _, rfl, List.mem_cons_self⟩

@[simp] theorem ofText?_text (u : Uuid) : ofText? u.text.toList = some u := by
  obtain ⟨c, rest, hcons, hc⟩ := u.exists_text_eq_cons
  obtain ⟨-, hbrace, hletter, -⟩ := of_mem_digitChars hc
  have hurn : (u.text.toList.take 9).map Char.toLower ≠ "urn:uuid:".toList := by
    intro h
    rw [hcons, List.take_succ_cons, List.map_cons] at h
    exact hletter (List.cons.inj h).1
  have hgroups : ofGroups? u.text.toList = some u := by
    rw [ofGroups?, filter_text, if_pos u.toList_text, ofDigits?_digitChars]
  unfold ofText?
  split
  · next heq =>
    rw [hcons] at heq
    exact absurd (List.cons.inj heq).1 hbrace
  · rw [if_neg hurn, if_neg (by rw [length_text]; decide), hgroups]

theorem isTrimmed_text (u : Uuid) : Text.IsTrimmed u.text.toList := by
  obtain ⟨c, rest, hcons, -⟩ := u.exists_text_eq_cons
  refine .of_forall (by simp [hcons]) fun c hc => ?_
  by_cases hhyphen : c = '-'
  · rw [hhyphen]
    rfl
  · have hmem : c ∈ u.text.toList.filter (· ≠ '-') :=
      List.mem_filter.mpr ⟨hc, decide_eq_true hhyphen⟩
    rw [filter_text] at hmem
    exact (of_mem_digitChars hmem).2.2.2

end RecordMapper.Uuid
