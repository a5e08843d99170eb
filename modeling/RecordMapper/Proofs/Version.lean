import Mathlib.Data.List.TakeWhile
import Mathlib.Data.Prod.Lex
import Mathlib.Order.Compare
import RecordMapper.Product
import RecordMapper.Proofs.Numeral

/-!
# Versions that are read back

A version is read from the beginning of what a product reports. The leading digits are the major
number, and what they cannot be is refused; the digits behind the next character, whatever that is,
are the minor number, and what they cannot be counts as 0. So a version that was written is read
back whatever follows it, as long as no digit does.

Versions are ordered by their major numbers first.
-/

set_option autoImplicit false

namespace RecordMapper

namespace Numeral

theorem exists_digitChar {c : Char} (h : isDigit c = true) : ∃ d < 10, c = Nat.digitChar d := by
  have hall : ∀ n < 10, Char.ofNat (48 + n) = Nat.digitChar n := by decide
  rw [isDigit, Bool.and_eq_true, decide_eq_true_eq, decide_eq_true_eq] at h
  have hlow : 48 ≤ c.toNat := h.1
  have hhigh : c.toNat ≤ 57 := h.2
  refine ⟨c.toNat - 48, by omega, ?_⟩
  rw [← hall _ (by omega), Nat.add_sub_of_le hlow, Char.ofNat_toNat]

/-- Characters that are digits are the characters of a digit list. -/
theorem exists_chars {cs : List Char} (h : ∀ c ∈ cs, isDigit c = true) :
    ∃ digits, (∀ d ∈ digits, d < 10) ∧ cs = chars digits := by
  induction cs with
  | nil => exact ⟨[], List.forall_mem_nil _, rfl⟩
  | cons c cs ih =>
    obtain ⟨hc, hcs⟩ := List.forall_mem_cons.mp h
    obtain ⟨d, hd, rfl⟩ := exists_digitChar hc
    obtain ⟨digits, hdigits, rfl⟩ := ih hcs
    exact ⟨d :: digits, List.forall_mem_cons.mpr ⟨hd, hdigits⟩, rfl⟩

/-- The text begins with digits that denote the number, and no further digit follows them. -/
def Leads (n : Nat) (cs : List Char) : Prop :=
  ∃ digits rest, digits ≠ [] ∧ (∀ d ∈ digits, d < 10) ∧ (∀ c ∈ rest.head?, isDigit c = false) ∧
    cs = chars digits ++ rest ∧ value 10 digits = n

/-- A text begins with some number if it begins with a digit. -/
theorem exists_leads_iff {cs : List Char} :
    (∃ n, Leads n cs) ↔ ∃ c ∈ cs.head?, isDigit c = true := by
  constructor
  · rintro ⟨n, digits, rest, hne, hdigits, -, rfl, -⟩
    obtain ⟨d, digits, rfl⟩ := List.exists_cons_of_ne_nil hne
    exact ⟨_, rfl, isDigit_digitChar (hdigits d List.mem_cons_self)⟩
  · rintro ⟨c, hc, hdigit⟩
    have hall : ∀ x ∈ cs.takeWhile isDigit, isDigit x = true := fun x => List.mem_takeWhile_imp
    obtain ⟨digits, hdigits, htake⟩ := exists_chars hall
    refine ⟨value 10 digits, digits, cs.dropWhile isDigit, ?_, hdigits, ?_, ?_, rfl⟩
    · rintro rfl
      obtain ⟨rest, rfl⟩ := List.head?_eq_some_iff.mp hc
      rw [List.takeWhile_cons_of_pos hdigit] at htake
      cases htake
    · intro x hx
      have hstop := List.head?_dropWhile_not isDigit cs
      rwa [Option.mem_def.mp hx] at hstop
    · rw [← htake, List.takeWhile_append_dropWhile]

theorem leads_ofNat (n : Nat) {rest : List Char} (hrest : ∀ c ∈ rest.head?, isDigit c = false) :
    Leads n ((ofNat n).toList ++ rest) :=
  ⟨decimal n, rest, decimal_ne_nil n, fun _ hd => lt_of_mem_decimal hd, hrest,
    by rw [toList_ofNat], value_decimal n⟩

end Numeral

namespace ProductVersion

open Numeral (Leads isDigit)

/-- The number of 32 bits, if it is one. -/
def number? (n : Nat) : Option UInt32 := if n < 2 ^ 32 then some (UInt32.ofNat n) else none

@[simp] theorem number?_toNat (n : UInt32) : number? n.toNat = some n := by
  rw [number?, if_pos n.toNat_lt, UInt32.ofNat_toNat]

theorem number?_eq_none_iff {n : Nat} : number? n = none ↔ 2 ^ 32 ≤ n := by
  unfold number?
  split
  · next h => exact iff_of_false nofun (by omega)
  · next h => exact iff_of_true rfl (by omega)

theorem part?_takeWhile {n : Nat} {cs : List Char} (h : Leads n cs) :
    part? (cs.takeWhile isDigit) = number? n := by
  obtain ⟨digits, rest, hne, hdigits, hrest, rfl, rfl⟩ := h
  have hchars : ∀ c ∈ Numeral.chars digits, isDigit c = true :=
    fun _ hc => Numeral.isDigit_of_mem_chars hdigits hc
  rw [(Numeral.takeWhile_isDigit_append hchars hrest).1, part?, Numeral.natural?_chars hne hdigits]
  rfl

theorem part?_of_head {cs : List Char} (h : ∀ c ∈ cs.head?, isDigit c = false) :
    part? (cs.takeWhile isDigit) = none := by
  cases cs with
  | nil => rfl
  | cons c rest =>
    rw [List.takeWhile_cons_of_neg (by simp [h c rfl])]
    rfl

/-- There is no version where no number of 32 bits leads. -/
theorem ofText?_eq_none_iff {s : String} :
    ofText? s = none ↔
      (∀ c ∈ (Text.trim s).toList.head?, isDigit c = false) ∨
        ∃ n, Leads n (Text.trim s).toList ∧ 2 ^ 32 ≤ n := by
  have hparts : ofText? s = none ↔ part? ((Text.trim s).toList.takeWhile isDigit) = none := by
    rw [ofText?, Option.map_eq_none_iff, Text.trim, String.toList_ofList]
  rw [hparts]
  by_cases hleads : ∃ n, Leads n (Text.trim s).toList
  · obtain ⟨n, hn⟩ := hleads
    obtain ⟨c, hc, hdigit⟩ := Numeral.exists_leads_iff.mp ⟨n, hn⟩
    rw [part?_takeWhile hn, number?_eq_none_iff]
    constructor
    · intro hlarge
      exact .inr ⟨n, hn, hlarge⟩
    · rintro (hnone | ⟨k, hk, hlarge⟩)
      · cases (hnone c hc).symm.trans hdigit
      · -- the number that leads is the only one
        have hsame := (part?_takeWhile hk).symm.trans (part?_takeWhile hn)
        rwa [number?_eq_none_iff.mpr hlarge, eq_comm, number?_eq_none_iff] at hsame
  · have hhead : ∀ c ∈ (Text.trim s).toList.head?, isDigit c = false := fun c hc =>
      Bool.eq_false_iff.mpr fun hdigit => hleads (Numeral.exists_leads_iff.mpr ⟨c, hc, hdigit⟩)
    exact iff_of_true (part?_of_head hhead) (.inl hhead)

theorem toList_text (v : ProductVersion) : v.text.toList =
    (Numeral.ofNat v.major.toNat).toList ++ '.' :: (Numeral.ofNat v.minor.toNat).toList := by
  rw [text, String.toList_append, String.toList_append, List.append_assoc]
  rfl

theorem isTrimmed_text (v : ProductVersion) : Text.IsTrimmed v.text.toList := by
  rw [toList_text]
  exact (Numeral.isTrimmed_ofNat _).append ['.'] (Numeral.isTrimmed_ofNat _)

/-- A version that was written is read back between blanks, whatever follows its last digit. -/
theorem ofText?_text (v : ProductVersion) {before suffix behind : String}
    (hbefore : ∀ c ∈ before.toList, Text.isBlank c = true)
    (hsuffix : ∀ c ∈ suffix.toList.head?, isDigit c = false)
    (hbehind : ∀ c ∈ behind.toList, Text.isBlank c = true) :
    ofText? (before ++ (v.text ++ suffix) ++ behind) = some v := by
  have hnumber (n : UInt32) {rest : List Char} (hrest : ∀ c ∈ rest.head?, isDigit c = false) :
      part? (((Numeral.ofNat n.toNat).toList ++ rest).takeWhile isDigit) = some n := by
    rw [part?_takeWhile (Numeral.leads_ofNat n.toNat hrest), number?_toNat]
  obtain ⟨kept, hkept, htrim⟩ := Text.exists_trimBlanks_append v.isTrimmed_text hbefore
    (suffix.toList ++ behind.toList)
  have hrest : ∀ c ∈ kept.head?, isDigit c = false := by
    intro c hc
    have hfirst : (suffix.toList ++ behind.toList).head? = some c := by
      obtain ⟨lost, hlost⟩ := hkept
      rw [← hlost, List.head?_append, Option.mem_def.mp hc, Option.some_or]
    rw [List.head?_append, Option.or_eq_some_iff] at hfirst
    rcases hfirst with hfirst | ⟨-, hfirst⟩
    · exact hsuffix c hfirst
    · refine Bool.eq_false_iff.mpr fun hdigit => ?_
      have hblank := hbehind c (List.mem_of_head? hfirst)
      rw [Numeral.isBlank_of_isDigit hdigit] at hblank
      cases hblank
  have hpoint : ∀ c ∈ ('.' :: ((Numeral.ofNat v.minor.toNat).toList ++ kept)).head?,
      isDigit c = false := by
    rintro _ ⟨⟩
    rfl
  have hdrop := (Numeral.takeWhile_isDigit_append
    (fun _ hc => Numeral.isDigit_of_mem_ofNat (n := v.major.toNat) hc) hpoint).2
  have hcs : Text.trimBlanks (before ++ (v.text ++ suffix) ++ behind).toList =
      (Numeral.ofNat v.major.toNat).toList ++
        '.' :: ((Numeral.ofNat v.minor.toNat).toList ++ kept) := by
    simp only [String.toList_append, List.append_assoc]
    rw [htrim, toList_text, List.append_assoc, List.cons_append]
  rw [ofText?, hcs, hnumber v.major hpoint, hdrop, List.drop_one, List.tail_cons,
    hnumber v.minor hrest]
  rfl

/-- Major number first. -/
def numbers (v : ProductVersion) : ℕ ×ₗ ℕ := toLex (v.major.toNat, v.minor.toNat)

theorem compare_eq (v w : ProductVersion) : v.compare w = Ord.compare v.numbers w.numbers := by
  rw [compare, UInt32.compare_eq_toNat_compare_toNat, UInt32.compare_eq_toNat_compare_toNat,
    Prod.Lex.compare_def]
  rfl

theorem atLeast_iff {v : ProductVersion} {major minor : UInt32} :
    v.atLeast major minor = true ↔ numbers ⟨major, minor⟩ ≤ v.numbers := by
  rw [numbers, numbers, Prod.Lex.toLex_le_toLex, atLeast, Bool.or_eq_true, Bool.and_eq_true,
    decide_eq_true_eq, decide_eq_true_eq, decide_eq_true_eq, UInt32.lt_iff_toNat_lt,
    UInt32.le_iff_toNat_le, ← UInt32.toNat_inj, eq_comm]

/-- A version that was written is read back between blanks, whatever follows it, unless a digit does.
Nothing is read where no digit leads, or a number that is too large. Versions are ordered by their
major numbers first, and one is at least another one exactly if it does not come before it. -/
theorem versions_read_back :
    (∀ (v : ProductVersion) (before suffix behind : String),
      (∀ c ∈ before.toList, Text.isBlank c = true) →
      (∀ c ∈ suffix.toList.head?, isDigit c = false) →
      (∀ c ∈ behind.toList, Text.isBlank c = true) →
      ofText? (before ++ (v.text ++ suffix) ++ behind) = some v) ∧
    (∀ s : String, ofText? s = none ↔
      (∀ c ∈ (Text.trim s).toList.head?, isDigit c = false) ∨
        ∃ n, Leads n (Text.trim s).toList ∧ 2 ^ 32 ≤ n) ∧
    (∀ v w : ProductVersion, v.compare w =
      Ord.compare (toLex (v.major.toNat, v.minor.toNat)) (toLex (w.major.toNat, w.minor.toNat))) ∧
    (∀ (v : ProductVersion) (major minor : UInt32),
      (v.atLeast major minor = true ↔
        toLex (major.toNat, minor.toNat) ≤ toLex (v.major.toNat, v.minor.toNat)) ∧
      (v.atLeast major minor = true ↔ v.compare ⟨major, minor⟩ ≠ .lt)) := by
  refine ⟨fun v before suffix behind => ofText?_text v, fun s => ofText?_eq_none_iff, compare_eq, ?_⟩
  intro v major minor
  refine ⟨atLeast_iff, atLeast_iff.trans ?_⟩
  rw [compare_eq, ne_eq, compare_lt_iff_lt, not_lt]

/-- What Derby reports, behind a blank; a build number that is too large to be a version. -/
theorem versions_read_back_derby :
    ofText? " 10.14.2.0 - (1828579)" = some ⟨10, 14⟩ ∧ ofText? "4294967296.1" = none ∧
      (⟨10, 14⟩ : ProductVersion).atLeast 10 5 = true := by
  obtain ⟨hread, hnone, -, horder⟩ := versions_read_back
  refine ⟨?_, ?_, ?_⟩
  · have hsuffix : ∀ c ∈ ".2.0 - (1828579)".toList.head?, isDigit c = false := by
      rintro _ ⟨⟩
      rfl
    have hderby := hread ⟨10, 14⟩ " " ".2.0 - (1828579)" "" (List.forall_mem_singleton.mpr rfl)
      hsuffix (List.forall_mem_nil _)
    have htext : " " ++ ((⟨10, 14⟩ : ProductVersion).text ++ ".2.0 - (1828579)") ++ "" =
        " 10.14.2.0 - (1828579)" := by decide +kernel
    rwa [htext] at hderby
  · refine (hnone _).mpr (.inr ⟨4294967296, ?_, by decide⟩)
    have htrim : (Text.trim "4294967296.1").toList =
        (Numeral.ofNat 4294967296).toList ++ ['.', '1'] := by decide +kernel
    have hpoint : ∀ c ∈ ['.', '1'].head?, isDigit c = false := by
      rintro _ ⟨⟩
      rfl
    rw [htrim]
    exact Numeral.leads_ofNat _ hpoint
  · exact ((horder ⟨10, 14⟩ 10 5).1).mpr (by decide)

end ProductVersion

end RecordMapper
