import RecordMapper.Proofs.Expr.Evaluation

/-!
# Folding keeps the truth of predicates

A rule replaces an expression by one that is true at the same time, but not always equal: for
`x <> 0` it leaves `x`. Where only the truth of an expression matters that is enough, and so it is
where the value is used and is a truth value before and after. `Foldable` asks for the latter
wherever a rule fires on an operand. Without it folding changes predicates: of `(x <> 0) = 1`
it leaves `x = 1`, and a text that reads as zero is false but differs from the text `0`.
-/

set_option autoImplicit false

namespace RecordMapper

inductive Use
  | truth
  | value

namespace Interpretation
variable (ι : Interpretation)

/-- Where the value is used, it is a truth value before and after folding. -/
def Kept (use : Use) (e : Expr) : Prop :=
  use = .value → (ι.eval e).IsTruthValue ∧ (ι.eval e.written).IsTruthValue

/-- If a test against the text `0` is folded, `0` is the only text that reads as zero among those
tested. -/
def ReadAsTested (tested zero : Expr) : Prop :=
  zero = .text "0" → ∀ s, ι.eval tested = .text s → ι.reading s = 0 → s = "0"

/-- The rules fire on an operand only where truth values are before and after. -/
def Foldable : Use → Expr → Prop
  | _, .number _ | _, .text _ | _, .null | _, .named _ _ => True
  | use, .binary l op r =>
    if op = .ne ∧ r.isConstant "0" then
      Foldable .truth l ∧ ι.ReadAsTested l r ∧ ι.Kept use (.binary l op r)
    else Foldable .value l ∧ Foldable .value r
  | use, .not e => Foldable .truth e ∧ ι.Kept use (.not e)
  | _, .and l r | _, .or l r => Foldable .truth l ∧ Foldable .truth r
  | use, .caseWhen c t f =>
    if t.isConstant "0" then
      Foldable .truth c ∧ Foldable .truth f ∧ ι.Kept use (.caseWhen c t f)
    else if t.isConstant "1" && f.isConstant "0" then
      Foldable .truth c ∧ ι.Kept use (.caseWhen c t f)
    else Foldable .truth c ∧ Foldable use t ∧ Foldable use f
  | _, .arrayGet a i => Foldable .value a ∧ Foldable .value i

structure Preserves (use : Use) (w : Expr.Writing) (e : Expr) : Prop where
  plain : ι.isTrue (ι.eval w.plain) = ι.isTrue (ι.eval e)
  negated : ι.isTrue (ι.eval w.negated) = !ι.isTrue (ι.eval e)
  value : use = .value → ι.eval w.plain = ι.eval e

variable {ι} {use : Use} {e : Expr}

theorem Preserves.of_isTrue {written : Expr}
    (htruth : ι.isTrue (ι.eval written) = ι.isTrue (ι.eval e))
    (hvalue : use = .value → ι.eval written = ι.eval e) :
    ι.Preserves use (.ofPlain written) e := by
  refine ⟨htruth, ?_, hvalue⟩
  rw [← htruth]
  exact ι.isTrue_ofBool _

theorem Preserves.ofPlain {written : Expr} (h : ι.eval written = ι.eval e) :
    ι.Preserves use (.ofPlain written) e :=
  .of_isTrue (by rw [h]) fun _ => h

theorem Preserves.of_kept {w : Expr.Writing} (hw : e.writing = w) (hkept : ι.Kept use e)
    (hplain : ι.isTrue (ι.eval w.plain) = ι.isTrue (ι.eval e))
    (hnegated : ι.isTrue (ι.eval w.negated) = !ι.isTrue (ι.eval e)) :
    ι.Preserves use w e := by
  refine ⟨hplain, hnegated, ?_⟩
  intro huse
  obtain ⟨hbefore, hafter⟩ := hkept huse
  subst hw
  exact ι.eq_of_isTrue_eq hafter hbefore hplain

theorem Preserves.eval_plain {w : Expr.Writing} (h : ι.Preserves .value w e) :
    ι.eval w.plain = ι.eval e :=
  h.value rfl

theorem isTrue_eval_ne_zero {l r : Expr} (hr : r.isConstant "0" = true)
    (hread : ι.ReadAsTested l r) :
    ι.isTrue (ι.eval (.binary l .ne r)) = ι.isTrue (ι.eval l) := by
  cases r with
  | number s =>
    obtain rfl : s = "0" := by simpa [Expr.isConstant] using hr
    rw [eval, if_neg (by simp), ι.apply_of_isComparison rfl, isTrue_ofBool, eval, ι.numeral_zero,
      admits_ne_number]
  | text s =>
    obtain rfl : s = "0" := by simpa [Expr.isConstant] using hr
    rw [eval, if_neg (by simp), ι.apply_of_isComparison rfl, isTrue_ofBool, eval]
    exact ι.admits_ne_text (hread rfl)
  | _ => simp [Expr.isConstant] at hr

theorem eval_binary_congr {l l' r r' : Expr} (op : Operator) (hnull : r' = .null ↔ r = .null)
    (hl : ι.eval l' = ι.eval l) (hr : ι.eval r' = ι.eval r) :
    ι.eval (.binary l' op r') = ι.eval (.binary l op r) := by
  by_cases h : r = .null
  · rw [eval, eval, if_pos h, if_pos (hnull.mpr h)]
  · rw [eval, eval, if_neg h, if_neg (mt hnull.mp h), hl, hr]

/-- The reversed comparison is the negation; with `NULL` only `=` and `<>` are compared. -/
theorem isTrue_eval_reversed {l r : Expr} {op reversed : Operator}
    (hop : op.reverse? = some reversed) (hnull : r = .null → op = .eq ∨ op = .ne) :
    ι.isTrue (ι.eval (.binary l reversed r)) = !ι.isTrue (ι.eval (.binary l op r)) := by
  rw [eval, eval]
  by_cases h : r = .null
  · rw [if_pos h, if_pos h, isTrue_ofBool, isTrue_ofBool]
    rcases hnull h with rfl | rfl <;> cases hop <;> rfl
  · have hthis : op.isComparison = true := by rw [Operator.isComparison, hop]; rfl
    have hother : reversed.isComparison = true := by
      rw [Operator.isComparison, Operator.reverse?_reverse? hop]
      rfl
    rw [if_neg h, if_neg h, ι.apply_of_isComparison hthis, ι.apply_of_isComparison hother,
      isTrue_ofBool, isTrue_ofBool, Operator.admits_reverse hop]

theorem isTrue_eval_case_not (c : Expr) {t f : Expr} (ht : t.isConstant "0" = true)
    (hf : f.isConstant "1" = true) :
    ι.isTrue (ι.eval (.caseWhen c t f)) = !ι.isTrue (ι.eval c) := by
  rw [eval]
  split
  · next hc => rw [hc, ι.isTrue_eval_of_isConstant_zero ht, Bool.not_true]
  · next hc => rw [Bool.eq_false_iff.mpr hc, ι.isTrue_eval_of_isConstant_one hf, Bool.not_false]

theorem isTrue_eval_case_same (c : Expr) {t f : Expr} (ht : t.isConstant "1" = true)
    (hf : f.isConstant "0" = true) :
    ι.isTrue (ι.eval (.caseWhen c t f)) = ι.isTrue (ι.eval c) := by
  rw [eval]
  split
  · next hc => rw [hc, ι.isTrue_eval_of_isConstant_one ht]
  · next hc => rw [Bool.eq_false_iff.mpr hc, ι.isTrue_eval_of_isConstant_zero hf]

theorem isTrue_eval_case_and (c f : Expr) {t : Expr} (ht : t.isConstant "0" = true) :
    ι.isTrue (ι.eval (.caseWhen c t f)) = (!ι.isTrue (ι.eval c) && ι.isTrue (ι.eval f)) := by
  rw [eval]
  split
  · next hc => rw [hc, ι.isTrue_eval_of_isConstant_zero ht, Bool.not_true, Bool.false_and]
  · next hc => rw [Bool.eq_false_iff.mpr hc, Bool.not_false, Bool.true_and]

/-- A test against zero is written as its left operand, which is true at the same time. -/
theorem Preserves.zeroTest {l r : Expr} (hr : r.isConstant "0" = true)
    (hread : ι.ReadAsTested l r) (hkept : ι.Kept use (.binary l .ne r))
    (hl : ι.Preserves .truth l.writing l) :
    ι.Preserves use (Expr.binary l .ne r).writing (.binary l .ne r) := by
  have hw : (Expr.binary l .ne r).writing = l.writing := by rw [Expr.writing, if_pos ⟨rfl, hr⟩]
  have htest := isTrue_eval_ne_zero hr hread
  rw [hw]
  exact .of_kept hw hkept (by rw [hl.plain, htest]) (by rw [hl.negated, htest])

/-- Elsewhere the operands are written for their values, and a comparison is negated by reversing
it. -/
theorem Preserves.binary {l r : Expr} {op : Operator} (hnull : (Expr.binary l op r).NullFree)
    (hzero : ¬ (op = .ne ∧ r.isConstant "0" = true)) (hl : ι.eval l.writing.plain = ι.eval l)
    (hr : ι.eval r.writing.plain = ι.eval r) :
    ι.Preserves use (Expr.binary l op r).writing (.binary l op r) := by
  have hcongr (op : Operator) : ι.eval (.binary l.writing.plain op r.writing.plain) =
      ι.eval (.binary l op r) :=
    eval_binary_congr op (Expr.NullFree.right_eq_null_iff hnull) hl hr
  rw [Expr.writing, if_neg hzero]
  cases hop : op.reverse? with
  | none => exact .ofPlain (hcongr op)
  | some reversed =>
    have hcompare : r = .null → op = .eq ∨ op = .ne := by
      rintro rfl
      exact (hnull.2.resolve_left id).2
    refine ⟨by rw [hcongr], ?_, fun _ => hcongr op⟩
    rw [hcongr]
    exact isTrue_eval_reversed hop hcompare

theorem Preserves.not (hkept : ι.Kept use (.not e)) (he : ι.Preserves .truth e.writing e) :
    ι.Preserves use (Expr.not e).writing (.not e) := by
  have htruth : ι.isTrue (ι.eval (.not e)) = !ι.isTrue (ι.eval e) := by rw [eval, isTrue_ofBool]
  refine .of_kept rfl hkept ?_ ?_
  · rw [htruth]
    exact he.negated
  · rw [htruth, Bool.not_not]
    exact he.plain

/-- `CASE WHEN c THEN 0 ELSE 1 END` is written as the negation of `c`. -/
theorem Preserves.caseNot {c t f : Expr} (ht : t.isConstant "0" = true)
    (hf : f.isConstant "1" = true) (hkept : ι.Kept use (.caseWhen c t f))
    (hc : ι.Preserves .truth c.writing c) :
    ι.Preserves use (Expr.caseWhen c t f).writing (.caseWhen c t f) := by
  have hw : (Expr.caseWhen c t f).writing = ⟨c.writing.negated, c.writing.plain⟩ := by
    rw [Expr.writing, if_pos ht, if_pos hf]
  have hnot := isTrue_eval_case_not (ι := ι) c ht hf
  rw [hw]
  refine .of_kept hw hkept ?_ ?_
  · rw [hnot, hc.negated]
  · rw [hnot, Bool.not_not, hc.plain]

/-- `CASE WHEN c THEN 0 ELSE f END` is written as a conjunction of `f` with the negation of `c`. -/
theorem Preserves.caseAnd {c t f : Expr} (ht : t.isConstant "0" = true)
    (hf : ¬ f.isConstant "1" = true) (hkept : ι.Kept use (.caseWhen c t f))
    (hc : ι.Preserves .truth c.writing c) (hother : ι.Preserves .truth f.writing f) :
    ι.Preserves use (Expr.caseWhen c t f).writing (.caseWhen c t f) := by
  have hw : (Expr.caseWhen c t f).writing = .ofPlain (.and c.writing.negated f.writing.plain) := by
    rw [Expr.writing, if_pos ht, if_neg hf]
  have hand : ι.isTrue (ι.eval (.and c.writing.negated f.writing.plain)) =
      ι.isTrue (ι.eval (.caseWhen c t f)) := by
    rw [isTrue_eval_case_and c f ht, eval, isTrue_ofBool, hc.negated, hother.plain]
  rw [hw]
  refine .of_kept hw hkept hand ?_
  rw [← hand]
  exact ι.isTrue_ofBool _

/-- `CASE WHEN c THEN 1 ELSE 0 END` is written as `c`. -/
theorem Preserves.caseSame {c t f : Expr} (hzero : ¬ t.isConstant "0" = true)
    (hsame : (t.isConstant "1" && f.isConstant "0") = true) (hkept : ι.Kept use (.caseWhen c t f))
    (hc : ι.Preserves .truth c.writing c) :
    ι.Preserves use (Expr.caseWhen c t f).writing (.caseWhen c t f) := by
  have hw : (Expr.caseWhen c t f).writing = c.writing := by
    rw [Expr.writing, if_neg hzero, if_pos hsame]
  obtain ⟨ht, hf⟩ := Bool.and_eq_true_iff.mp hsame
  have hcase := isTrue_eval_case_same (ι := ι) c ht hf
  rw [hw]
  exact .of_kept hw hkept (by rw [hcase, hc.plain]) (by rw [hcase, hc.negated])

/-- Any other choice stays one; its branches are used as the choice is. -/
theorem Preserves.caseWhen {c t f : Expr} (hzero : ¬ t.isConstant "0" = true)
    (hsame : ¬ (t.isConstant "1" && f.isConstant "0") = true)
    (hc : ι.Preserves .truth c.writing c) (ht : ι.Preserves use t.writing t)
    (hf : ι.Preserves use f.writing f) :
    ι.Preserves use (Expr.caseWhen c t f).writing (.caseWhen c t f) := by
  rw [Expr.writing, if_neg hzero, if_neg hsame]
  refine .of_isTrue ?_ ?_
  · rw [eval, eval, hc.plain]
    split
    · exact ht.plain
    · exact hf.plain
  · intro huse
    rw [eval, eval, hc.plain, ht.value huse, hf.value huse]

/-- By induction on the expression: its truth is kept in every use, its negation is written for its
negation, and its value is kept where it is used. -/
theorem preserves_writing (hnull : e.NullFree) (h : ι.Foldable use e) :
    ι.Preserves use e.writing e := by
  induction e generalizing use with
  | null => exact hnull.elim
  | number s => exact .ofPlain rfl
  | text s => exact .ofPlain rfl
  | named name value => exact .ofPlain rfl
  | binary l op r ihl ihr =>
    by_cases hzero : op = .ne ∧ r.isConstant "0" = true
    · rw [Foldable, if_pos hzero] at h
      obtain ⟨hl, hread, hkept⟩ := h
      obtain ⟨rfl, hr⟩ := hzero
      exact .zeroTest hr hread hkept (ihl hnull.1 hl)
    · rw [Foldable, if_neg hzero] at h
      refine .binary hnull hzero (ihl hnull.1 h.1).eval_plain ?_
      rcases hnull.2 with hr | ⟨rfl, -⟩
      · exact (ihr hr h.2).eval_plain
      · rfl
  | not e ih => exact .not h.2 (ih hnull h.1)
  | and l r ihl ihr =>
    refine .ofPlain ?_
    rw [eval, eval, (ihl hnull.1 h.1).plain, (ihr hnull.2 h.2).plain]
  | or l r ihl ihr =>
    refine .ofPlain ?_
    rw [eval, eval, (ihl hnull.1 h.1).plain, (ihr hnull.2 h.2).plain]
  | caseWhen c t f ihc iht ihf =>
    obtain ⟨hcn, htn, hfn⟩ := hnull
    by_cases hzero : t.isConstant "0" = true
    · rw [Foldable, if_pos hzero] at h
      obtain ⟨hc, hf, hkept⟩ := h
      by_cases hone : f.isConstant "1" = true
      · exact .caseNot hzero hone hkept (ihc hcn hc)
      · exact .caseAnd hzero hone hkept (ihc hcn hc) (ihf hfn hf)
    · rw [Foldable, if_neg hzero] at h
      by_cases hsame : (t.isConstant "1" && f.isConstant "0") = true
      · rw [if_pos hsame] at h
        exact .caseSame hzero hsame h.2 (ihc hcn h.1)
      · rw [if_neg hsame] at h
        obtain ⟨hc, ht, hf⟩ := h
        exact .caseWhen hzero hsame (ihc hcn hc) (iht htn ht) (ihf hfn hf)
  | arrayGet a i iha ihi =>
    refine .ofPlain ?_
    rw [eval, eval, (iha hnull.1 h.1).eval_plain, (ihi hnull.2 h.2).eval_plain]

end Interpretation

namespace Expr

/-- A predicate is rendered as the tree that is written for it, and holds exactly if that tree
does, provided that rules fire on operands only where these are truth values. -/
theorem holds_written_iff (ι : Interpretation) (columns : String → Option String) {e : Expr}
    (hnull : e.NullFree) (hfoldable : ι.Foldable .truth e) :
    e.render columns = e.written.verbatim columns ∧ (ι.Holds e.written ↔ ι.Holds e) := by
  refine ⟨render_eq_verbatim columns hnull, ?_⟩
  have h := (Interpretation.preserves_writing hnull hfoldable).plain
  rw [Interpretation.Holds, Interpretation.Holds, written, h]

def column (name : String) : Expr := named name none

def adult : Expr := binary (column "age") .ge (number "18")

/-- A test for zero stands as an operand, and a choice between tests for zero stands under a
negation. -/
def screening : Expr :=
  and (binary (binary adult .ne (number "0")) .eq (number "1"))
    (not (caseWhen (binary (column "active") .ne (number "0")) (number "0")
      (binary (column "note") .ne (text "0"))))

/-- A row that is 20 years old, not active, and has the note `007`. -/
def applicant : Interpretation :=
  .whole fun name _ =>
    if name = "age" then .number 20 else if name = "note" then .text "007" else .number 0

theorem holds_written_screening :
    screening.NullFree ∧ applicant.Foldable .truth screening ∧
      screening.render some = screening.written.verbatim some ∧
      (applicant.Holds screening.written ↔ applicant.Holds screening) ∧
      screening.written = and (binary adult .eq (number "1"))
        (not (and (not (column "active")) (column "note"))) ∧
      ¬ applicant.Holds screening := by
  have hnull : screening.NullFree := by simp [screening, NullFree, adult, column]
  have hadult : applicant.Kept .value (binary adult .ne (number "0")) :=
    fun _ => ⟨⟨true, rfl⟩, ⟨true, rfl⟩⟩
  have hnote : applicant.ReadAsTested (column "note") (text "0") := by
    intro _ s hs hzero
    obtain rfl : "007" = s := Datum.text.inj hs
    exact absurd hzero (by decide)
  have htruth (e : Expr) : applicant.Kept .truth e := nofun
  have hfoldable : applicant.Foldable .truth screening := by
    refine ⟨⟨⟨⟨trivial, trivial⟩, nofun, hadult⟩, trivial⟩, ?_, htruth _⟩
    exact ⟨⟨trivial, nofun, htruth _⟩, ⟨trivial, hnote, htruth _⟩, htruth _⟩
  obtain ⟨hrender, hholds⟩ := holds_written_iff applicant some hnull hfoldable
  exact ⟨hnull, hfoldable, hrender, hholds, rfl, by decide⟩

/-- Folding a test that is itself compared with 1 leaves its operand, which may be true without
being 1. A text other than `0` may still read as zero. A double negation turns any true value into
1. -/
theorem written_not_holds_of_operand :
    let two : Interpretation := .whole fun _ _ => .number 2
    let word : Interpretation := .whole fun _ _ => .text "abc"
    let flag := binary (binary (column "x") .ne (number "0")) .eq (number "1")
    let twice := binary (not (not (column "x"))) .eq (number "1")
    let wordy := binary (column "x") .ne (text "0")
    flag.NullFree ∧ flag.written = binary (column "x") .eq (number "1") ∧
      two.Holds flag ∧ ¬ two.Holds flag.written ∧
    twice.NullFree ∧ twice.written = binary (column "x") .eq (number "1") ∧
      two.Holds twice ∧ ¬ two.Holds twice.written ∧
    wordy.NullFree ∧ wordy.written = column "x" ∧
      word.Holds wordy ∧ ¬ word.Holds wordy.written ∧
    (flag.render some).map (Sql.written .positional 0) = .ok "(x = 1)" := by
  intro two word flag twice wordy
  refine ⟨?_, rfl, ?_, ?_, ?_, rfl, ?_, ?_, ?_, rfl, ?_, ?_, rfl⟩
  · exact ⟨⟨trivial, .inl trivial⟩, .inl trivial⟩
  · decide
  · decide
  · exact ⟨trivial, .inl trivial⟩
  · decide
  · decide
  · exact ⟨trivial, .inl trivial⟩
  · decide
  · decide

end Expr

end RecordMapper
