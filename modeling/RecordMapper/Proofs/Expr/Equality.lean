import Mathlib.Data.List.Forall2
import RecordMapper.Proofs.Expr.Form
import RecordMapper.Proofs.Expr.Written
import RecordMapper.Proofs.Query.Encoding

/-!
# The equalities of an expression

The comparisons by `=` and `<>` that are left of an expression once it is folded are those of its
normal form, in the same order and with the same sides. One whose right side is the literal `NULL`
has become a test. A side that is `NULL` in any other way stands in the normal form as `NULL` or as
a parameter.
-/

set_option autoImplicit false

namespace RecordMapper

theorem Operator.testsNull_of_reverse? {op reversed : Operator} (h : op.reverse? = some reversed) :
    reversed.testsNull = op.testsNull := by
  cases op <;> cases h <;> rfl

/-- What is found in one of two lists is found in the other. -/
theorem exists_mem_iff_of_forall₂ {α β : Type} {R : α → β → Prop} {P : α → Prop} {Q : β → Prop}
    (hR : ∀ a b, R a b → (P a ↔ Q b)) {as : List α} {bs : List β} (h : List.Forall₂ R as bs) :
    (∃ a ∈ as, P a) ↔ ∃ b ∈ bs, Q b := by
  induction h with
  | nil => exact iff_of_false (by simp) (by simp)
  | cons hab _ ih => rw [List.exists_mem_cons_iff, List.exists_mem_cons_iff, hR _ _ hab, ih]

namespace Form

/-- The sides of every `=` and `<>` in the form. A test for null has no right side. -/
def equalities : Form → List (Form × Option Form)
  | number _ | text _ | null | column _ | param _ => []
  | binary l op r => (if op.testsNull then [(l, some r)] else []) ++ l.equalities ++ r.equalities
  | isNull e _ => (e, none) :: e.equalities
  | not e => e.equalities
  | and l r | or l r | arrayGet l r => l.equalities ++ r.equalities
  | caseWhen c t f => c.equalities ++ t.equalities ++ f.equalities

/-- The form is `NULL` or a parameter that is bound to it. -/
def IsNullTerm (f : Form) : Prop := f = null ∨ f = param .null

/-- Some `=` or `<>` has a side that is null. -/
def EquatesNull (f : Form) : Prop :=
  ∃ sides ∈ f.equalities, ∃ right ∈ sides.2, sides.1.IsNullTerm ∨ right.IsNullTerm

end Form

namespace Expr

/-- The sides of every `=` and `<>` that the folding rules leave. The literal `NULL` counts as no
right side. -/
def equated : Expr → List (Expr × Option Expr)
  | number _ | text _ | null | named _ _ => []
  | binary l op r =>
    if op = .ne ∧ r.isConstant "0" then l.equated
    else
      (if op.testsNull then [(l, if r = null then none else some r)] else []) ++ l.equated ++
        r.equated
  | not e => e.equated
  | and l r | or l r | arrayGet l r => l.equated ++ r.equated
  | caseWhen c t f =>
    if t.isConstant "0" then
      if f.isConstant "1" then c.equated else c.equated ++ f.equated
    else if t.isConstant "1" && f.isConstant "0" then c.equated
    else c.equated ++ t.equated ++ f.equated

section Columns
variable (columns : String → Option QualifiedName)

/-- The tree is `NULL`, or a variable that is bound to it and is no column. -/
def IsNullTree (e : Expr) : Prop :=
  e = null ∨ ∃ name, e = named name (some .null) ∧ columns name = none

/-- Some `=` or `<>` that is left has a side that is null once it is folded, and is not the literal
`NULL` on the right. -/
def EquatesNull (e : Expr) : Prop :=
  ∃ sides ∈ e.equated, ∃ right ∈ sides.2,
    sides.1.written.IsNullTree columns ∨ right.written.IsNullTree columns

/-- The sides of a comparison are written as the forms. -/
def SidesWritten (pair : Expr × Option Expr) (sides : Form × Option Form) : Prop :=
  pair.1.form columns = .ok sides.1 ∧
    Option.Rel (fun right f => right.form columns = .ok f) pair.2 sides.2

/-- The equalities of the form, if there is one, are those of the list, written. -/
def Equates (pairs : List (Expr × Option Expr)) (x : Result Form) : Prop :=
  ∀ f, x = .ok f → List.Forall₂ (SidesWritten columns) pairs f.equalities

structure Forms.Equates (pairs : List (Expr × Option Expr)) (w : Forms) : Prop where
  plain : Expr.Equates columns pairs w.plain
  negated : Expr.Equates columns pairs w.negated

variable {columns} {pairs more : List (Expr × Option Expr)}

theorem equates_ok {f : Form} (h : List.Forall₂ (SidesWritten columns) pairs f.equalities) :
    Equates columns pairs (.ok f) := by
  intro g hg
  obtain rfl := Except.ok.inj hg
  exact h

theorem Forms.Equates.ofPlain {x : Result Form} (h : Expr.Equates columns pairs x) :
    Forms.Equates columns pairs (.ofPlain x) := by
  refine ⟨h, ?_⟩
  intro g hg
  obtain ⟨f, hf, rfl⟩ := Result.map_eq_ok_iff.mp hg
  exact h f hf

theorem equates_formNamed (name : String) (value : Option Value) :
    Equates columns [] (formNamed columns name value) := by
  unfold formNamed
  split
  · exact equates_ok .nil
  · exact equates_ok .nil
  · exact nofun

theorem equates_formPair {build : Form → Form → Form}
    (hbuild : ∀ left right, (build left right).equalities = left.equalities ++ right.equalities)
    {l r : Result Form} (hl : Equates columns pairs l) (hr : Equates columns more r) :
    Equates columns (pairs ++ more) (formPair build l r) := by
  intro f h
  obtain ⟨left, hleft, h⟩ := Result.bind_eq_ok_iff.mp h
  obtain ⟨right, hright, h⟩ := Result.bind_eq_ok_iff.mp h
  obtain rfl := Except.ok.inj h
  rw [hbuild]
  exact List.rel_append (hl left hleft) (hr right hright)

theorem formBinary_eq (left : Result Form) (op : Operator) (rightIsNull : Bool)
    (right : Result Form) : formBinary left op rightIsNull right = do
      let left ← left
      if op.testsNull ∧ rightIsNull then return .isNull left (op = .ne)
      return .binary left op (← right) := by
  cases left with
  | error e => rfl
  | ok left => cases op <;> cases rightIsNull <;> rfl

/-- The comparison itself comes first, as a test if its right side is the literal. -/
theorem equates_formBinary {l r : Expr} (op : Operator)
    (hl : Equates columns pairs (l.form columns))
    (hr : Equates columns more (r.form columns)) (hnull : r = null → more = []) :
    Equates columns
      ((if op.testsNull then [(l, if r = null then none else some r)] else []) ++ pairs ++ more)
      (formBinary (l.form columns) op (r = null) (r.form columns)) := by
  intro f h
  rw [formBinary_eq] at h
  obtain ⟨left, hleft, h⟩ := Result.bind_eq_ok_iff.mp h
  by_cases htest : op.testsNull ∧ decide (r = null) = true
  · have hright : r = null := of_decide_eq_true htest.2
    rw [if_pos htest] at h
    obtain rfl := Except.ok.inj h
    rw [if_pos htest.1, if_pos hright, hnull hright, List.append_nil]
    exact .cons ⟨hleft, .none⟩ (hl left hleft)
  · rw [if_neg htest] at h
    obtain ⟨right, hright, h⟩ := Result.bind_eq_ok_iff.mp h
    obtain rfl := Except.ok.inj h
    refine List.rel_append (List.rel_append ?_ (hl left hleft)) (hr right hright)
    by_cases htests : op.testsNull
    · have hne : r ≠ null := fun hr => htest ⟨htests, decide_eq_true hr⟩
      rw [if_pos htests, if_pos htests, if_neg hne]
      exact .cons ⟨hleft, .some hright⟩ .nil
    · rw [if_neg htests, if_neg htests]
      exact .nil

theorem equates_forms (e : Expr) : (e.forms columns).Equates columns e.equated := by
  induction e with
  | number s => exact .ofPlain (equates_ok .nil)
  | text s => exact .ofPlain (equates_ok .nil)
  | null => exact .ofPlain (equates_ok .nil)
  | named name value => exact .ofPlain (equates_formNamed name value)
  | binary l op r ihl ihr =>
    have hnull : r = null → r.equated = [] := by
      rintro rfl
      rfl
    have hplain := equates_formBinary op ihl.plain ihr.plain hnull
    rw [forms, equated]
    by_cases hzero : op = .ne ∧ r.isConstant "0" = true
    · rw [if_pos hzero, if_pos hzero]
      exact ihl
    · rw [if_neg hzero, if_neg hzero]
      cases hreversed : op.reverse? with
      | some reversed =>
        have hnegated := equates_formBinary reversed ihl.plain ihr.plain hnull
        rw [Operator.testsNull_of_reverse? hreversed] at hnegated
        exact ⟨hplain, hnegated⟩
      | none => exact .ofPlain hplain
  | not e ih => exact ⟨ih.negated, ih.plain⟩
  | and l r ihl ihr => exact .ofPlain (equates_formPair (fun _ _ => rfl) ihl.plain ihr.plain)
  | or l r ihl ihr => exact .ofPlain (equates_formPair (fun _ _ => rfl) ihl.plain ihr.plain)
  | caseWhen c t f ihc iht ihf =>
    rw [forms, equated]
    split
    · split
      · exact ⟨ihc.negated, ihc.plain⟩
      · exact .ofPlain (equates_formPair (fun _ _ => rfl) ihc.negated ihf.plain)
    · split
      · exact ihc
      · refine .ofPlain ?_
        intro form h
        obtain ⟨condition, hcondition, h⟩ := Result.bind_eq_ok_iff.mp h
        obtain ⟨ifTrue, hifTrue, h⟩ := Result.bind_eq_ok_iff.mp h
        obtain ⟨ifFalse, hifFalse, h⟩ := Result.bind_eq_ok_iff.mp h
        obtain rfl := Except.ok.inj h
        exact List.rel_append
          (List.rel_append (ihc.plain _ hcondition) (iht.plain _ hifTrue)) (ihf.plain _ hifFalse)
  | arrayGet a i iha ihi => exact .ofPlain (equates_formPair (fun _ _ => rfl) iha.plain ihi.plain)

/-- The equalities of the normal form are those that folding leaves, side by side. -/
theorem equalities_form {e : Expr} {f : Form} (h : e.form columns = .ok f) :
    List.Forall₂ (SidesWritten columns) e.equated f.equalities := (equates_forms e).plain f h

variable {tree : Expr}

/-- The form, if there is one, is null exactly if the tree is. -/
def IsNullAs (columns : String → Option QualifiedName) (tree : Expr) (x : Result Form) : Prop :=
  ∀ f, x = .ok f → (f.IsNullTerm ↔ tree.IsNullTree columns)

structure Forms.IsNullAs (columns : String → Option QualifiedName) (w : Writing) (forms : Forms) :
    Prop where
  plain : Expr.IsNullAs columns w.plain forms.plain
  negated : Expr.IsNullAs columns w.negated forms.negated

theorem isNullAs_ok {f : Form} (h : f.IsNullTerm ↔ tree.IsNullTree columns) :
    IsNullAs columns tree (.ok f) := by
  intro g hg
  obtain rfl := Except.ok.inj hg
  exact h

/-- What is put together is not null. -/
theorem isNullAs_of_not {x : Result Form} (hx : ∀ f, x = .ok f → ¬f.IsNullTerm)
    (htree : ¬tree.IsNullTree columns) : IsNullAs columns tree x :=
  fun f hf => iff_of_false (hx f hf) htree

theorem Forms.IsNullAs.ofPlain {x : Result Form} (h : Expr.IsNullAs columns tree x) :
    Forms.IsNullAs columns (.ofPlain tree) (.ofPlain x) := by
  refine ⟨h, isNullAs_of_not ?_ (by simp [Writing.ofPlain, IsNullTree])⟩
  intro g hg
  obtain ⟨f, -, rfl⟩ := Result.map_eq_ok_iff.mp hg
  simp [Form.IsNullTerm]

theorem isNullAs_formNamed (name : String) (value : Option Value) :
    IsNullAs columns (named name value) (formNamed columns name value) := by
  unfold formNamed
  cases hcolumn : columns name with
  | some column => exact isNullAs_ok (by simp [Form.IsNullTerm, IsNullTree, hcolumn])
  | none =>
    cases value with
    | some v => exact isNullAs_ok (by simp [Form.IsNullTerm, IsNullTree, hcolumn])
    | none => exact nofun

theorem isNullAs_formPair {build : Form → Form → Form}
    (hbuild : ∀ left right, ¬(build left right).IsNullTerm) (l r : Result Form)
    (htree : ¬tree.IsNullTree columns) : IsNullAs columns tree (formPair build l r) := by
  refine isNullAs_of_not ?_ htree
  intro f h
  obtain ⟨left, -, h⟩ := Result.bind_eq_ok_iff.mp h
  obtain ⟨right, -, h⟩ := Result.bind_eq_ok_iff.mp h
  obtain rfl := Except.ok.inj h
  exact hbuild left right

theorem isNullAs_formBinary (l r : Result Form) (op written : Operator) (rightIsNull : Bool)
    (left right : Expr) :
    IsNullAs columns (binary left written right) (formBinary l op rightIsNull r) := by
  refine isNullAs_of_not ?_ (by simp [IsNullTree])
  intro f h
  rw [formBinary_eq] at h
  obtain ⟨left, -, h⟩ := Result.bind_eq_ok_iff.mp h
  split at h
  · obtain rfl := Except.ok.inj h
    simp [Form.IsNullTerm]
  · obtain ⟨right, -, h⟩ := Result.bind_eq_ok_iff.mp h
    obtain rfl := Except.ok.inj h
    simp [Form.IsNullTerm]

theorem isNullAs_forms (e : Expr) : (e.forms columns).IsNullAs columns e.writing := by
  induction e with
  | number s => exact .ofPlain (isNullAs_ok (by simp [Form.IsNullTerm, IsNullTree]))
  | text s => exact .ofPlain (isNullAs_ok (by simp [Form.IsNullTerm, IsNullTree]))
  | null => exact .ofPlain (isNullAs_ok (by simp [Form.IsNullTerm, IsNullTree]))
  | named name value => exact .ofPlain (isNullAs_formNamed name value)
  | binary l op r ihl ihr =>
    rw [forms, writing]
    by_cases hzero : op = .ne ∧ r.isConstant "0" = true
    · rw [if_pos hzero, if_pos hzero]
      exact ihl
    · rw [if_neg hzero, if_neg hzero]
      cases op.reverse? with
      | some reversed =>
        exact ⟨isNullAs_formBinary _ _ _ _ _ _ _, isNullAs_formBinary _ _ _ _ _ _ _⟩
      | none => exact .ofPlain (isNullAs_formBinary _ _ _ _ _ _ _)
  | not e ih => exact ⟨ih.negated, ih.plain⟩
  | and l r ihl ihr =>
    exact .ofPlain (isNullAs_formPair (by simp [Form.IsNullTerm]) _ _ (by simp [IsNullTree]))
  | or l r ihl ihr =>
    exact .ofPlain (isNullAs_formPair (by simp [Form.IsNullTerm]) _ _ (by simp [IsNullTree]))
  | caseWhen c t f ihc iht ihf =>
    rw [forms, writing]
    split
    · split
      · exact ⟨ihc.negated, ihc.plain⟩
      · exact .ofPlain (isNullAs_formPair (by simp [Form.IsNullTerm]) _ _ (by simp [IsNullTree]))
    · split
      · exact ihc
      · refine .ofPlain (isNullAs_of_not ?_ (by simp [IsNullTree]))
        intro form h
        obtain ⟨condition, -, h⟩ := Result.bind_eq_ok_iff.mp h
        obtain ⟨ifTrue, -, h⟩ := Result.bind_eq_ok_iff.mp h
        obtain ⟨ifFalse, -, h⟩ := Result.bind_eq_ok_iff.mp h
        obtain rfl := Except.ok.inj h
        simp [Form.IsNullTerm]
  | arrayGet a i iha ihi =>
    exact .ofPlain (isNullAs_formPair (by simp [Form.IsNullTerm]) _ _ (by simp [IsNullTree]))

/-- A normal form is null exactly if the expression is once it is folded. -/
theorem isNullTerm_form_iff {e : Expr} {f : Form} (h : e.form columns = .ok f) :
    f.IsNullTerm ↔ e.written.IsNullTree columns := (isNullAs_forms e).plain f h

/-- The sides that are null in the normal form are those that folding makes null. -/
theorem equatesNull_form_iff {e : Expr} {f : Form} (h : e.form columns = .ok f) :
    f.EquatesNull ↔ e.EquatesNull columns := by
  refine (exists_mem_iff_of_forall₂ ?_ (equalities_form h)).symm
  rintro ⟨left, right?⟩ ⟨leftForm, rightForm?⟩ ⟨hleft, hright⟩
  cases hright with
  | none => exact iff_of_false nofun nofun
  | some hright =>
    simp only [Option.mem_some_iff, exists_eq_left']
    rw [isNullTerm_form_iff hleft, isNullTerm_form_iff hright]

end Columns

end Expr

end RecordMapper
