import RecordMapper.Dialect.Products
import RecordMapper.Proofs.Result
import RecordMapper.Proofs.Statement.Placeholder

/-!
# Pages of rows

A page is what is left of the rows of a query when some are skipped and no more than so many are
taken. The products ask for pages in different words; what is written for a limit and an offset is
read by the product as the page that they ask for.
-/

set_option autoImplicit false

namespace RecordMapper

/-- Nothing but the absence of a page is written where there are no pages. -/
theorem Dialect.supportsPaging_of_page {d : Dialect} {limit offset : Option Nat} {clause : Sql}
    (h : d.page limit offset = .ok clause) :
    d.supportsPaging = true ∨ limit = none ∧ offset = none := by
  cases hpaging : d.paging with
  | unsupported dialect feature =>
    refine .inr ?_
    unfold page at h
    split at h
    · next hnone => simpa using hnone
    · rw [hpaging] at h
      cases h
  | _ =>
    refine .inl ?_
    rw [supportsPaging, hpaging]

structure Page where
  skipped : Nat := 0
  /-- The greatest number of rows on the page, if there is one. -/
  most : Option Nat := none
deriving DecidableEq, Repr

namespace Page

def rows {α : Type} (p : Page) (all : List α) : List α :=
  match p.most with
  | some n => (all.drop p.skipped).take n
  | none => all.drop p.skipped

/-- The page that a limit and an offset ask for. -/
def asked (limit offset : Option Nat) : Page := ⟨offset.getD 0, limit⟩

/-- The words of a clause, each with a blank before it. -/
def words? (clause : String) : Option (List String) :=
  match clause.toList.splitOn ' ' with
  | [] :: words => some (words.map String.ofList)
  | _ => none

def number? (word : String) : Option Nat := Numeral.natural? word.toList

/-- `LIMIT` with a number; SQLite takes `-1` for no limit. -/
def most? (p : Product) (word : String) : Option (Option Nat) :=
  if p = .sqlite ∧ word = "-1" then some none else (number? word).map some

/-- MySQL and SQLite know `OFFSET` only behind `LIMIT`. -/
def ofLimit? (p : Product) : List String → Option Page
  | [] => some {}
  | ["LIMIT", most] => (most? p most).map fun most => ⟨0, most⟩
  | ["OFFSET", skipped] =>
    if p = .mySql ∨ p = .sqlite then none else (number? skipped).map fun skipped => ⟨skipped, none⟩
  | ["LIMIT", most, "OFFSET", skipped] => do return ⟨← number? skipped, ← most? p most⟩
  | _ => none

def ofFetch? : List String → Option Page
  | [] => some {}
  | ["OFFSET", skipped, "ROWS"] => (number? skipped).map fun skipped => ⟨skipped, none⟩
  | ["OFFSET", skipped, "ROWS", "FETCH", "NEXT", most, "ROWS", "ONLY"] => do
    return ⟨← number? skipped, some (← number? most)⟩
  | _ => none

/-- The page that a product reads in a clause at the end of a `SELECT`. -/
def ofClause? (p : Product) (clause : String) : Option Page := do
  let words ← words? clause
  if p = .derby then ofFetch? words else ofLimit? p words

def spaced : List String → String
  | [] => ""
  | word :: words => " " ++ word ++ spaced words

theorem toList_spaced (words : List String) :
    (spaced words).toList = [' '].intercalate ([] :: words.map String.toList) := by
  induction words using List.twoStepInduction with
  | nil => rfl
  | singleton word => simp [spaced, List.intercalate]
  | cons_cons word next others _ ih =>
    rw [spaced, String.toList_append, String.toList_append, ih next]
    simp [List.intercalate]

theorem words?_spaced {words : List String} (h : ∀ word ∈ words, ' ' ∉ word.toList) :
    words? (spaced words) = some words := by
  have hmem : ∀ cs ∈ [] :: words.map String.toList, ' ' ∉ cs := by
    intro cs hcs
    rcases List.mem_cons.mp hcs with rfl | hcs
    · exact List.not_mem_nil
    · obtain ⟨word, hword, rfl⟩ := List.mem_map.mp hcs
      exact h word hword
  rw [words?, toList_spaced, List.splitOn_intercalate ' ' hmem (by simp)]
  simp

theorem blank_not_mem_ofNat (n : Nat) : ' ' ∉ (Numeral.ofNat n).toList := by
  intro h
  exact absurd (Numeral.isDigit_of_mem_ofNat h) (by decide)

@[simp] theorem number?_ofNat (n : Nat) : number? (Numeral.ofNat n) = some n :=
  Numeral.natural?_ofNat n

/-- To the product the clause asks for the page with this limit and offset, of any rows that can be
counted in 64 bits. -/
structure Denotes (p : Product) (limit offset : Option Nat) (clause : Sql) : Prop where
  params : clause.params = []
  reads : ∃ page, (∀ style bound, ofClause? p (clause.written style bound) = some page) ∧
    ∀ {α : Type} (all : List α), all.length < 18446744073709551616 →
      page.rows all = (asked limit offset).rows all

variable {p : Product} {limit offset : Option Nat} {clause : Sql}

theorem denotes_of_spaced (words : List String) (page : Page) (hparams : clause.params = [])
    (hwritten : ∀ style bound, clause.written style bound = spaced words)
    (hwords : ∀ word ∈ words, ' ' ∉ word.toList)
    (hread : (if p = .derby then ofFetch? words else ofLimit? p words) = some page)
    (hrows : ∀ {α : Type} (all : List α), all.length < 18446744073709551616 →
      page.rows all = (asked limit offset).rows all) : Denotes p limit offset clause where
  params := hparams
  reads := by
    refine ⟨page, fun style bound => ?_, hrows⟩
    rw [hwritten, ofClause?, words?_spaced hwords]
    exact hread

theorem denotes_nil (p : Product) : Denotes p none none [] := by
  refine denotes_of_spaced [] {} rfl (fun _ _ => rfl) nofun ?_ fun _ _ => rfl
  cases p <;> rfl

@[simp] theorem most?_ofNat (p : Product) (n : Nat) :
    most? p (Numeral.ofNat n) = some (some n) := by
  have hminus : Numeral.ofNat n ≠ "-1" := by
    intro h
    have hdigit := Numeral.isDigit_of_mem_ofNat (n := n) (c := '-') (by rw [h]; decide)
    exact absurd hdigit (by decide)
  rw [most?, if_neg fun h => hminus h.2, number?_ofNat]
  rfl

theorem denotes_limit (hp : p ≠ .derby) (n : Nat) :
    Denotes p (some n) none (Sql.text (" LIMIT " ++ Numeral.ofNat n)) := by
  refine denotes_of_spaced ["LIMIT", Numeral.ofNat n] ⟨0, some n⟩ rfl (fun _ _ => ?_) ?_ ?_
    fun _ _ => rfl
  · simp [← String.toList_inj, spaced, Sql.written, Sql.text]
  · simp [blank_not_mem_ofNat]
  · rw [if_neg hp]
    change (most? p (Numeral.ofNat n)).map _ = _
    rw [most?_ofNat]
    rfl

theorem denotes_offset (hp : p = .generic ∨ p = .h2 ∨ p = .postgreSql) (m : Nat) :
    Denotes p none (some m) (Sql.text (" OFFSET " ++ Numeral.ofNat m)) := by
  refine denotes_of_spaced ["OFFSET", Numeral.ofNat m] ⟨m, none⟩ rfl (fun _ _ => ?_) ?_ ?_
    fun _ _ => rfl
  · simp [← String.toList_inj, spaced, Sql.written, Sql.text]
  · simp [blank_not_mem_ofNat]
  · have hread : (number? (Numeral.ofNat m)).map (fun skipped => (⟨skipped, none⟩ : Page)) =
        some ⟨m, none⟩ := by
      rw [number?_ofNat]
      rfl
    rcases hp with rfl | rfl | rfl <;> exact hread

theorem denotes_limit_offset (hp : p ≠ .derby) (word : String) {most : Option Nat}
    (hblank : ' ' ∉ word.toList) (hmost : most? p word = some most) (m : Nat)
    (hrows : ∀ {α : Type} (all : List α), all.length < 18446744073709551616 →
      rows ⟨m, most⟩ all = (asked limit (some m)).rows all) :
    Denotes p limit (some m)
      (Sql.text (" LIMIT " ++ word) ++ Sql.text (" OFFSET " ++ Numeral.ofNat m)) := by
  refine denotes_of_spaced ["LIMIT", word, "OFFSET", Numeral.ofNat m] ⟨m, most⟩ rfl
    (fun _ _ => ?_) ?_ ?_ hrows
  · simp [← String.toList_inj, spaced, Sql.written, Sql.text]
  · simp [blank_not_mem_ofNat, hblank]
  · rw [if_neg hp]
    change ((number? (Numeral.ofNat m)).bind fun skipped => (most? p word).bind fun most =>
      some (Page.mk skipped most)) = _
    rw [number?_ofNat, hmost]
    rfl

theorem denotes_fetch (limit offset : Option Nat) :
    Denotes .derby limit offset
      (Sql.text (" OFFSET " ++ Numeral.ofNat (offset.getD 0) ++ " ROWS") ++
        match limit with
        | some n => Sql.text (" FETCH NEXT " ++ Numeral.ofNat n ++ " ROWS ONLY")
        | none => []) := by
  cases limit with
  | none =>
    refine denotes_of_spaced ["OFFSET", Numeral.ofNat (offset.getD 0), "ROWS"]
      ⟨offset.getD 0, none⟩ rfl (fun _ _ => ?_) ?_ ?_ fun _ _ => rfl
    · simp [← String.toList_inj, spaced, Sql.written, Sql.text]
    · simp [blank_not_mem_ofNat]
    · change (number? (Numeral.ofNat (offset.getD 0))).map _ = _
      rw [number?_ofNat]
      rfl
  | some n =>
    refine denotes_of_spaced ["OFFSET", Numeral.ofNat (offset.getD 0), "ROWS", "FETCH", "NEXT",
      Numeral.ofNat n, "ROWS", "ONLY"] ⟨offset.getD 0, some n⟩ rfl (fun _ _ => ?_) ?_ ?_
      fun _ _ => rfl
    · simp [← String.toList_inj, spaced, Sql.written, Sql.text]
    · simp [blank_not_mem_ofNat]
    · change ((number? (Numeral.ofNat (offset.getD 0))).bind fun skipped =>
        (number? (Numeral.ofNat n)).bind fun most => some (Page.mk skipped (some most))) = _
      rw [number?_ofNat, number?_ofNat]
      rfl

theorem denotes_derby {version : ProductVersion}
    (h : (Dialect.derby version).page limit offset = .ok clause) :
    Denotes .derby limit offset clause := by
  unfold Dialect.page at h
  by_cases hnone : (limit.isNone && offset.isNone) = true
  · rw [if_pos hnone] at h
    rw [Bool.and_eq_true, Option.isNone_iff_eq_none, Option.isNone_iff_eq_none] at hnone
    obtain ⟨rfl, rfl⟩ := hnone
    obtain rfl : [] = clause := Except.ok.inj h
    exact denotes_nil .derby
  · have hpaging : (Dialect.derby version).paging = .offsetFetch := by
      by_cases hversion : version.atLeast 10 5 = true
      · exact if_pos hversion
      · have hunsupported : (Dialect.derby version).paging = _ := if_neg hversion
        rw [if_neg hnone, hunsupported] at h
        cases h
    rw [if_neg hnone, hpaging] at h
    obtain rfl := Except.ok.inj h
    exact denotes_fetch limit offset

/-- What a product writes for a limit and an offset, it reads as the page that they ask for. -/
theorem denotes_page {version : ProductVersion}
    (h : (Dialect.ofProduct p version).page limit offset = .ok clause) :
    Denotes p limit offset clause := by
  by_cases hp : p = .derby
  · subst hp
    exact denotes_derby h
  · cases limit with
    | none =>
      cases offset with
      | none =>
        obtain rfl : [] = clause := Except.ok.inj h
        exact denotes_nil p
      | some m =>
        cases p with
        | generic | h2 | postgreSql =>
          obtain rfl := Except.ok.inj h
          exact denotes_offset (by simp) m
        | mySql =>
          obtain rfl := Except.ok.inj h
          have hmost : most? .mySql "18446744073709551615" = some (some 18446744073709551615) := by
            decide
          refine denotes_limit_offset hp _ (by decide) hmost m fun all hall => ?_
          -- nothing is cut off: no more rows than that can be left
          refine List.take_of_length_le ?_
          rw [List.length_drop]
          omega
        | sqlite =>
          obtain rfl := Except.ok.inj h
          exact denotes_limit_offset hp "-1" (by decide) rfl m fun _ _ => rfl
        | derby => exact absurd rfl hp
    | some n =>
      cases offset with
      | none =>
        cases p with
        | derby => exact absurd rfl hp
        | _ =>
          obtain rfl := Except.ok.inj h
          exact denotes_limit hp n
      | some m =>
        have hoffset : Denotes p (some n) (some m) _ :=
          denotes_limit_offset hp (Numeral.ofNat n) (blank_not_mem_ofNat n) (most?_ofNat p n) m
            fun _ _ => rfl
        cases p with
        | derby => exact absurd rfl hp
        | _ =>
          obtain rfl := Except.ok.inj h
          exact hoffset

end Page

end RecordMapper
