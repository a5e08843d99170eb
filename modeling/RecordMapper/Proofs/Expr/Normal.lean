import Mathlib.Logic.Function.Iterate
import RecordMapper.Expr.Rendering

/-!
# Folding at the top is a normalisation

The folding rules are stated here as a relation, apart from the functions that apply them. At most
one rule applies to an expression, and each leaves less of the chain of choices and comparisons
that begins at the top: the rule that makes a conjunction keeps the size, but no rule applies to a
conjunction. So folding again and again ends, at `fullyFolded`, and rendering is what is written
for that node: it does not see how far its argument has been folded.
-/

set_option autoImplicit false

namespace RecordMapper.Expr

/-- A folding rule applied at the top of an expression. -/
inductive Folds : Expr → Expr → Prop
  | negation {c t f : Expr} (ht : t.isConstant "0") (hf : f.isConstant "1") :
    Folds (caseWhen c t f) (not c)
  | conjunction {c t f : Expr} (ht : t.isConstant "0") (hf : ¬f.isConstant "1") :
    Folds (caseWhen c t f) (and (not c) f)
  | condition {c t f : Expr} (ht : t.isConstant "1") (hf : f.isConstant "0") :
    Folds (caseWhen c t f) c
  | nonzero {l r : Expr} (hr : r.isConstant "0") : Folds (binary l .ne r) l

/-- No rule applies at the top. -/
def IsNormal (e : Expr) : Prop := ∀ e', ¬e.Folds e'

/-- How many choices and operators stand on each other's first operand from the top down. -/
def spine : Expr → Nat
  | caseWhen c _ _ => c.spine + 1
  | binary l _ _ => l.spine + 1
  | _ => 0

namespace Folds
variable {e e' : Expr}

theorem spine_lt (h : e.Folds e') : e'.spine < e.spine := by
  cases h <;> simp [spine]

theorem folded_eq (h : e.Folds e') : e.folded = e' := by
  cases h with
  | negation ht hf => rw [folded, if_pos ht, if_pos hf]
  | conjunction ht hf => rw [folded, if_pos ht, if_neg hf]
  | condition ht hf =>
    rw [folded, if_neg (not_isConstant ht (by decide)), if_pos (by simp [ht, hf])]
  | nonzero hr => rw [folded, if_pos ⟨rfl, hr⟩]

theorem fullyFolded_eq (h : e.Folds e') : e.fullyFolded = e'.fullyFolded := by
  cases h with
  | negation ht hf =>
    rw [fullyFolded, if_pos ht, if_pos hf]
    rfl
  | conjunction ht hf =>
    rw [fullyFolded, if_pos ht, if_neg hf]
    rfl
  | condition ht hf =>
    rw [fullyFolded, if_neg (not_isConstant ht (by decide)), if_pos (by simp [ht, hf])]
  | nonzero hr => rw [fullyFolded, if_pos ⟨rfl, hr⟩]

end Folds

/-- The functions have a case for each rule and none besides. -/
theorem folds_or_isNormal (e : Expr) :
    e.Folds e.folded ∨ e.IsNormal ∧ e.folded = e ∧ e.fullyFolded = e := by
  cases e with
  | caseWhen c t f =>
    by_cases ht : t.isConstant "0" = true
    · by_cases hf : f.isConstant "1" = true
      · exact .inl (by rw [folded, if_pos ht, if_pos hf]; exact .negation ht hf)
      · exact .inl (by rw [folded, if_pos ht, if_neg hf]; exact .conjunction ht hf)
    · by_cases hsame : (t.isConstant "1" && f.isConstant "0") = true
      · obtain ⟨hone, hzero⟩ := Bool.and_eq_true_iff.mp hsame
        exact .inl (by rw [folded, if_neg ht, if_pos hsame]; exact .condition hone hzero)
      · refine .inr ⟨?_, by rw [folded, if_neg ht, if_neg hsame],
          by rw [fullyFolded, if_neg ht, if_neg hsame]⟩
        rintro e' (⟨h, -⟩ | ⟨h, -⟩ | ⟨hone, hzero⟩)
        · exact ht h
        · exact ht h
        · exact hsame (Bool.and_eq_true_iff.mpr ⟨hone, hzero⟩)
  | binary l op r =>
    by_cases h : op = .ne ∧ r.isConstant "0" = true
    · obtain ⟨rfl, hr⟩ := h
      exact .inl (by rw [folded, if_pos ⟨rfl, hr⟩]; exact .nonzero hr)
    · refine .inr ⟨?_, by rw [folded, if_neg h], by rw [fullyFolded, if_neg h]⟩
      rintro e' ⟨⟩
      exact h ⟨rfl, ‹_›⟩
  | _ => exact .inr ⟨nofun, rfl, rfl⟩

theorem IsNormal.folded_eq {e : Expr} (h : e.IsNormal) : e.folded = e :=
  (folds_or_isNormal e).elim (fun hfolds => absurd hfolds (h _)) (·.2.1)

@[simp] theorem fullyFolded_folded (e : Expr) : e.folded.fullyFolded = e.fullyFolded := by
  rcases folds_or_isNormal e with hfolds | ⟨-, hsame, -⟩
  · exact hfolds.fullyFolded_eq.symm
  · rw [hsame]

@[simp] theorem fullyFolded_iterate (n : Nat) (e : Expr) :
    (folded^[n] e).fullyFolded = e.fullyFolded := by
  induction n generalizing e with
  | zero => rfl
  | succ n ih => rw [Function.iterate_succ_apply, ih, fullyFolded_folded]

/-- By induction on the chain from the top, which every rule shortens. -/
theorem exists_iterate_folded (e : Expr) :
    ∃ n ≤ e.spine, folded^[n] e = e.fullyFolded ∧ e.fullyFolded.IsNormal := by
  induction hn : e.spine using Nat.strongRecOn generalizing e with
  | _ length ih =>
    subst hn
    rcases folds_or_isNormal e with hfolds | ⟨hnormal, -, hfull⟩
    · obtain ⟨n, hle, hfull, hnormal⟩ := ih e.folded.spine hfolds.spine_lt e.folded rfl
      rw [fullyFolded_folded] at hfull hnormal
      exact ⟨n + 1, Nat.lt_of_le_of_lt hle hfolds.spine_lt, hfull, hnormal⟩
    · rw [hfull]
      exact ⟨0, Nat.zero_le _, rfl, hnormal⟩

theorem fullyFolded_of_isNormal {e : Expr} (h : e.IsNormal) : e.fullyFolded = e :=
  (folds_or_isNormal e).elim (fun hfolds => absurd hfolds (h _)) (·.2.2)

/-- What is written for a node that is not folded at its top, as everything below it is. -/
def node (columns : String → Option String) : Expr → Rendering
  | number s => .ofPlain (.ok (Sql.text s))
  | text s => .ofPlain (.ok (Sql.text (Text.literal s)))
  | null => .ofPlain (.ok (Sql.text "NULL"))
  | named name value => .ofPlain (renderNamed columns name value)
  | binary l op r =>
    let written (op : Operator) := renderBinary (l.render columns) op (r = null) (r.render columns)
    match op.reverse? with
    | some reversed => ⟨written op, written reversed⟩
    | none => .ofPlain (written op)
  | not e => ⟨(e.rendering columns).negated, e.render columns⟩
  | and l r => .ofPlain (renderLogical (l.render columns) " AND " (r.render columns))
  | or l r => .ofPlain (renderLogical (l.render columns) " OR " (r.render columns))
  | caseWhen c t f => .ofPlain do
    let condition ← c.render columns
    let ifTrue ← t.render columns
    let ifFalse ← f.render columns
    return Sql.text "CASE WHEN " ++ condition ++ Sql.text " THEN " ++ ifTrue ++
      Sql.text " ELSE " ++ ifFalse ++ Sql.text " END"
  | arrayGet a i => .ofPlain do
    let array ← a.render columns
    let index ← i.render columns
    return array ++ Sql.text "[" ++ index ++ Sql.text "]"

/-- Rendering is folding at the top to the end and writing the node that is reached. -/
theorem rendering_eq_node (columns : String → Option String) (e : Expr) :
    e.rendering columns = e.fullyFolded.node columns := by
  induction e with
  | binary l op r ihl _ =>
    rw [rendering, fullyFolded]
    split
    · exact ihl
    · rfl
  | caseWhen c t f ihc _ _ =>
    rw [rendering, fullyFolded]
    split
    · split <;> rfl
    · split
      · exact ihc
      · rfl
  | _ => rfl

@[simp] theorem rendering_folded (columns : String → Option String) (e : Expr) :
    e.folded.rendering columns = e.rendering columns := by
  rw [rendering_eq_node, fullyFolded_folded, ← rendering_eq_node]

theorem rendering_not_caseWhen (columns : String → Option String) (e : Expr) {t f : Expr}
    (ht : t.isConstant "0") (hf : f.isConstant "1") :
    (not (caseWhen e t f)).rendering columns = e.rendering columns := by
  have hcase : (caseWhen e t f).rendering columns =
      ⟨(e.rendering columns).negated, (e.rendering columns).plain⟩ := by
    rw [rendering, if_pos ht, if_pos hf]
  rw [rendering, hcase]

/-- Folding ends at `fullyFolded`, the only iterate on which no rule applies. It changes nothing in
what is rendered, as do two negations, of which one may be a choice of 0 over 1. -/
theorem folding_normalises (e : Expr) :
    (∃ n ≤ e.spine, folded^[n] e = e.fullyFolded) ∧ e.fullyFolded.IsNormal ∧
    (∀ n, (folded^[n] e).IsNormal → folded^[n] e = e.fullyFolded) ∧
    ∀ (columns : String → Option String) (s : Statement),
      (e.folded.render columns).map s.append = (e.render columns).map s.append ∧
      ((not (not e)).render columns).map s.append = (e.render columns).map s.append ∧
      ∀ t f : Expr, t.isConstant "0" → f.isConstant "1" →
        ((not (caseWhen e t f)).render columns).map s.append = (e.render columns).map s.append := by
  obtain ⟨n, hle, hfull, hnormal⟩ := exists_iterate_folded e
  refine ⟨⟨n, hle, hfull⟩, hnormal, ?_, ?_⟩
  · intro m hm
    rw [← fullyFolded_iterate m e, fullyFolded_of_isNormal hm]
  · intro columns s
    refine ⟨?_, by rw [render_not_not], ?_⟩
    · rw [render, rendering_folded, render]
    · intro t f ht hf
      rw [render, rendering_not_caseWhen columns e ht hf, render]

/-- A column tested for 0 twice, with a choice of 1 over 0 between the tests. -/
def tested : Expr :=
  binary (caseWhen (binary (named "active" none) .ne (text "0")) (number "1") (text "0")) .ne
    (number "0")

theorem folding_normalises_tested :
    tested.fullyFolded = named "active" none ∧ folded^[3] tested = tested.fullyFolded ∧
      tested.fullyFolded.IsNormal ∧
      ((not (caseWhen tested (text "0") (number "1"))).render some).map (Statement.append {}) =
        .ok { body := [.text "active"] } := by
  obtain ⟨-, hnormal, hunique, hrender⟩ := folding_normalises tested
  obtain ⟨-, -, hnot⟩ := hrender some {}
  exact ⟨rfl, hunique 3 nofun, hnormal, (hnot _ _ rfl rfl).trans rfl⟩

end RecordMapper.Expr
