import RecordMapper.Proofs.Expr.Balance

/-!
# Folding in context

A folding rule may be applied to a part of an expression before the whole is rendered. The
parameters and the success of the rendering never change by that. Its text changes only where the
node above inspects the part as it stands: a right side for `NULL` and `0`, and a branch of a choice
for `0` and `1`. Two rules are overruled: a choice between 0 and 1 is a plain negation, and a
comparison with 0 that is reversed is not a test for 0.
-/

set_option autoImplicit false

namespace RecordMapper.Expr

/-- A node with one of its children taken out. -/
inductive Frame
  | binaryLeft (op : Operator) (right : Expr)
  | binaryRight (left : Expr) (op : Operator)
  | not
  | andLeft (right : Expr)
  | andRight (left : Expr)
  | orLeft (right : Expr)
  | orRight (left : Expr)
  | caseCondition (ifTrue ifFalse : Expr)
  | caseTrue (condition ifFalse : Expr)
  | caseFalse (condition ifTrue : Expr)
  | arrayOf (index : Expr)
  | indexOf (array : Expr)

namespace Frame

def around : Frame → Expr → Expr
  | binaryLeft op r, e => .binary e op r
  | binaryRight l op, e => .binary l op e
  | not, e => .not e
  | andLeft r, e => .and e r
  | andRight l, e => .and l e
  | orLeft r, e => .or e r
  | orRight l, e => .or l e
  | caseCondition t f, e => .caseWhen e t f
  | caseTrue c f, e => .caseWhen c e f
  | caseFalse c t, e => .caseWhen c t e
  | arrayOf i, e => .arrayGet e i
  | indexOf a, e => .arrayGet a e

/-- Whether the node renders in another way because of what its child is. -/
def sees : Frame → Expr → Bool
  | binaryRight _ op, e => op = .ne && e.isConstant "0" || (op = .eq || op = .ne) && e = null
  | caseTrue _ f, e => e.isConstant "0" || e.isConstant "1" && f.isConstant "0"
  | caseFalse _ t, e =>
    t.isConstant "0" && e.isConstant "1" || t.isConstant "1" && e.isConstant "0"
  | _, _ => false

end Frame

/-- The nodes above a hole, the lowest first. -/
abbrev Context := List Frame

def Context.fill (C : Context) (e : Expr) : Expr := C.foldl (fun e F => F.around e) e

/-- One expression is replaced by its equal. -/
inductive Rewrites : Expr → Expr → Prop
  | caseNot {c t f : Expr} : t.isConstant "0" → f.isConstant "1" →
      Rewrites (caseWhen c t f) (not c)
  | caseSame {c t f : Expr} : t.isConstant "1" → f.isConstant "0" → Rewrites (caseWhen c t f) c
  | caseAnd {c t f : Expr} : t.isConstant "0" → Rewrites (caseWhen c t f) (and (not c) f)
  | neZero {x zero : Expr} : zero.isConstant "0" → Rewrites (binary x .ne zero) x
  | notNot {x : Expr} : Rewrites (not (not x)) x
  | notComparison {l r : Expr} {op reversed : Operator} : op.reverse? = some reversed →
      Rewrites (not (binary l op r)) (binary l reversed r)

/-- Another rule comes first, on one side of the replacement. -/
def overruled : Expr → Expr → Bool
  | caseWhen _ t f, and _ _ => t.isConstant "0" && f.isConstant "1"
  | not (binary _ op r), binary _ _ _ => (op = .eq || op = .ne) && r.isConstant "0"
  | _, _ => false

/-- Whether the replacement of `e` by `e'` shows. -/
def Context.exposes (C : Context) (e e' : Expr) : Bool :=
  overruled e e' || C.head?.any fun F => F.sees e'

section Columns
variable (columns : String → Option String)

/-- The rendering of a node that does not inspect its child. -/
def Frame.rendering : Frame → Rendering → Rendering
  | binaryLeft op r, hole =>
    if op = .ne ∧ r.isConstant "0" then hole
    else .ofBinary hole.plain op (r = null) (r.rendering columns).plain
  | binaryRight l op, hole => .ofBinary (l.rendering columns).plain op false hole.plain
  | not, hole => hole.negation
  | andLeft r, hole => .ofPlain (renderLogical hole.plain " AND " (r.rendering columns).plain)
  | andRight l, hole => .ofPlain (renderLogical (l.rendering columns).plain " AND " hole.plain)
  | orLeft r, hole => .ofPlain (renderLogical hole.plain " OR " (r.rendering columns).plain)
  | orRight l, hole => .ofPlain (renderLogical (l.rendering columns).plain " OR " hole.plain)
  | caseCondition t f, hole =>
    if t.isConstant "0" then
      if f.isConstant "1" then hole.negation
      else .ofPlain (renderLogical hole.negated " AND " (f.rendering columns).plain)
    else if t.isConstant "1" && f.isConstant "0" then hole
    else .ofPlain (renderCase hole.plain (t.rendering columns).plain (f.rendering columns).plain)
  | caseTrue c f, hole =>
    .ofPlain (renderCase (c.rendering columns).plain hole.plain (f.rendering columns).plain)
  | caseFalse c t, hole =>
    if t.isConstant "0" then
      .ofPlain (renderLogical (c.rendering columns).negated " AND " hole.plain)
    else .ofPlain (renderCase (c.rendering columns).plain (t.rendering columns).plain hole.plain)
  | arrayOf i, hole => .ofPlain (renderElement hole.plain (i.rendering columns).plain)
  | indexOf a, hole => .ofPlain (renderElement (a.rendering columns).plain hole.plain)

namespace Frame

theorem rendering_around {F : Frame} {e : Expr} (h : F.sees e = false) :
    (F.around e).rendering columns = F.rendering columns (e.rendering columns) := by
  cases F with
  | binaryRight l op =>
    obtain ⟨hzero, hnull⟩ := Bool.or_eq_false_iff.mp h
    have hunfolded : ¬(op = .ne ∧ e.isConstant "0" = true) := by
      rintro ⟨rfl, he⟩
      simp [he] at hzero
    rw [around, rendering_binary, if_neg hunfolded, rendering]
    rcases Bool.and_eq_false_iff.mp hnull with hop | he
    · exact Rendering.ofBinary_of_not_equality hop _ _ _
    · rw [he]
  | caseTrue c f =>
    obtain ⟨hzero, hone⟩ := Bool.or_eq_false_iff.mp h
    rw [around, rendering_caseWhen, hzero, hone]
    rfl
  | caseFalse c t =>
    obtain ⟨hone, hzero⟩ := Bool.or_eq_false_iff.mp h
    rw [around, rendering_caseWhen, hzero, rendering]
    split
    · next ht =>
      rw [ht, Bool.true_and] at hone
      rw [hone]
      rfl
    · rfl
  | _ => rfl

/-- By the node: every one writes what its child renders to, once. -/
theorem apart_rendering (F : Frame) {hole hole' : Rendering} (h : hole.Apart hole') :
    (F.rendering columns hole).Apart (F.rendering columns hole') := by
  cases F with
  | binaryLeft op r =>
    rw [rendering, rendering]
    split
    · exact h
    · exact .ofBinary op fun op => apart_renderBinary_left _ op _ h.plain
  | binaryRight l op => exact .ofBinary op fun op => apart_renderBinary_right _ op h.plain
  | not => exact h.negation
  | andLeft r => exact .ofPlain (apart_renderLogical_left _ _ h.plain)
  | andRight l => exact .ofPlain (apart_renderLogical_right _ _ h.plain)
  | orLeft r => exact .ofPlain (apart_renderLogical_left _ _ h.plain)
  | orRight l => exact .ofPlain (apart_renderLogical_right _ _ h.plain)
  | caseCondition t f =>
    rw [rendering, rendering]
    split
    · split
      · exact h.negation
      · exact .ofPlain (apart_renderLogical_left _ _ h.negated)
    · split
      · exact h
      · exact .ofPlain (apart_renderCase_condition _ _ h.plain)
  | caseTrue c f => exact .ofPlain (apart_renderCase_true _ _ h.plain)
  | caseFalse c t =>
    rw [rendering, rendering]
    split
    · exact .ofPlain (apart_renderLogical_right _ _ h.plain)
    · exact .ofPlain (apart_renderCase_false _ _ h.plain)
  | arrayOf i => exact .ofPlain (apart_renderElement_left _ h.plain)
  | indexOf a => exact .ofPlain (apart_renderElement_right _ h.plain)

/-- What a node sees makes a difference. -/
theorem apart_around {F : Frame} {x : Expr} (h : F.sees x = true) :
    (F.rendering columns (x.rendering columns)).Apart ((F.around x).rendering columns) := by
  cases F with
  | binaryRight l op =>
    rw [around, rendering_binary]
    rcases Bool.or_eq_true_iff.mp h with hzero | hnull
    · obtain ⟨rfl, hx⟩ : op = .ne ∧ x.isConstant "0" = true := by simpa using hzero
      obtain ⟨s, hs⟩ := rendering_of_isConstant columns hx
      rw [if_pos ⟨rfl, hx⟩, rendering, hs]
      exact (balanced_rendering columns l).apart_ne s
    · obtain ⟨hop, rfl⟩ : (op = .eq ∨ op = .ne) ∧ x = null := by simpa using hnull
      rw [if_neg (by simp [isConstant]), rendering]
      exact Rendering.apart_null hop _
  | caseTrue c f =>
    rw [around, rendering_caseWhen, rendering]
    rcases Bool.or_eq_true_iff.mp h with hzero | hone
    · obtain ⟨s, hs⟩ := rendering_of_isConstant columns hzero
      rw [if_pos hzero, hs]
      split
      · next hf =>
        obtain ⟨s', hs'⟩ := rendering_of_isConstant columns hf
        rw [hs']
        exact (balanced_rendering columns c).apart_case_negation s s'
      · exact (balanced_rendering columns c).apart_case_and s _
    · obtain ⟨hx, hf⟩ := Bool.and_eq_true_iff.mp hone
      obtain ⟨s, hs⟩ := rendering_of_isConstant columns hx
      obtain ⟨s', hs'⟩ := rendering_of_isConstant columns hf
      rw [if_neg (not_isConstant hx (by decide)), if_pos hone, hs, hs']
      exact (balanced_rendering columns c).apart_case s s'
  | caseFalse c t =>
    rw [around, rendering_caseWhen, rendering]
    rcases Bool.or_eq_true_iff.mp h with hone | hzero
    · obtain ⟨ht, hx⟩ := Bool.and_eq_true_iff.mp hone
      obtain ⟨s, hs⟩ := rendering_of_isConstant columns hx
      rw [if_pos ht, if_pos ht, if_pos hx, hs]
      exact (balanced_rendering columns c).apart_and s
    · obtain ⟨ht, hx⟩ := Bool.and_eq_true_iff.mp hzero
      obtain ⟨s, hs⟩ := rendering_of_isConstant columns ht
      obtain ⟨s', hs'⟩ := rendering_of_isConstant columns hx
      have ht' := not_isConstant ht (by decide : "1" ≠ "0")
      rw [if_neg ht', if_neg ht', if_pos hzero, hs, hs']
      exact (balanced_rendering columns c).apart_case s s'
  | _ => cases h

end Frame

theorem Frame.sees_eq_false (F : Frame) {x : Expr}
    (hconstant : ∀ literal, x.isConstant literal = false) (hnull : x ≠ null) :
    F.sees x = false := by
  cases F <;> simp [sees, hconstant, hnull]

@[simp] theorem Frame.sees_around (F G : Frame) (x : Expr) : F.sees (G.around x) = false := by
  cases G <;> exact F.sees_eq_false (fun _ => rfl) nofun

theorem Rewrites.sees_eq_false {e e' : Expr} (h : Rewrites e e') (F : Frame) :
    F.sees e = false := by
  cases h <;> exact F.sees_eq_false (fun _ => rfl) nofun

/-- The two rules that another one may come before. -/
theorem Rewrites.cases_of_overruled {e e' : Expr} (h : Rewrites e e')
    (ho : overruled e e' = true) :
    (∃ c t f, e = caseWhen c t f ∧ e' = and (not c) f ∧ t.isConstant "0" ∧ f.isConstant "1") ∨
      ∃ l op reversed r, e = not (binary l op r) ∧ e' = binary l reversed r ∧
        op.reverse? = some reversed ∧ (op = .eq ∨ op = .ne) ∧ r.isConstant "0" := by
  cases h with
  | caseNot ht hf => cases ho
  | @caseSame c t f ht hf =>
    cases e' with
    | and => exact absurd (Bool.and_eq_true_iff.mp ho).1 (not_isConstant ht (by decide))
    | _ => cases ho
  | @caseAnd c t f ht =>
    exact .inl ⟨c, t, f, rfl, rfl, ht, (Bool.and_eq_true_iff.mp ho).2⟩
  | neZero hzero => cases ho
  | notNot => cases ho
  | @notComparison l r op reversed hop =>
    obtain ⟨heq, hr⟩ := Bool.and_eq_true_iff.mp ho
    exact .inr ⟨l, op, reversed, r, rfl, rfl, hop, by simpa using heq, hr⟩

theorem Rewrites.sees_eq_false_of_overruled {e e' : Expr} (h : Rewrites e e')
    (ho : overruled e e' = true) (F : Frame) : F.sees e' = false := by
  obtain ⟨_, _, _, -, rfl, -⟩ | ⟨_, _, _, _, -, rfl, -⟩ := h.cases_of_overruled ho
  · exact F.sees_eq_false (fun _ => rfl) nofun
  · exact F.sees_eq_false (fun _ => rfl) nofun

theorem Rewrites.rendering_eq {e e' : Expr} (h : Rewrites e e') (ho : overruled e e' = false) :
    e.rendering columns = e'.rendering columns := by
  cases h with
  | caseNot ht hf =>
    rw [rendering_caseWhen, if_pos ht, if_pos hf]
    rfl
  | caseSame ht hf =>
    rw [rendering_caseWhen, if_neg (not_isConstant ht (by decide)), if_pos (by rw [ht, hf]; rfl)]
  | @caseAnd c t f ht =>
    have hf : f.isConstant "1" = false := by simpa [overruled, ht] using ho
    rw [rendering_caseWhen, if_pos ht, hf]
    rfl
  | neZero hzero => rw [rendering_binary, if_pos ⟨rfl, hzero⟩]
  | notNot => rfl
  | @notComparison l r op reversed hop =>
    have hthis : ¬(op = .ne ∧ r.isConstant "0" = true) := by
      rintro ⟨rfl, hr⟩
      simp [overruled, hr] at ho
    have hother : ¬(reversed = .ne ∧ r.isConstant "0" = true) := by
      rintro ⟨rfl, hr⟩
      obtain rfl : Operator.eq = op := Option.some.inj (Operator.reverse?_reverse? hop)
      simp [overruled, hr] at ho
    have hnot : (not (binary l op r)).rendering columns =
      ((binary l op r).rendering columns).negation := rfl
    rw [hnot, rendering_binary, rendering_binary, if_neg hthis, if_neg hother,
      Rendering.negation_ofBinary hop]

theorem Rewrites.apart_of_overruled {e e' : Expr} (h : Rewrites e e')
    (ho : overruled e e' = true) : (e.rendering columns).Apart (e'.rendering columns) := by
  obtain ⟨c, t, f, rfl, rfl, ht, hf⟩ | ⟨l, op, reversed, r, rfl, rfl, hop, heq, hr⟩ :=
    h.cases_of_overruled ho
  · obtain ⟨s, hs⟩ := rendering_of_isConstant columns hf
    have hand : (and (not c) f).rendering columns = .ofPlain
        (renderLogical (c.rendering columns).negated " AND " (f.rendering columns).plain) := rfl
    rw [rendering_caseWhen, if_pos ht, if_pos hf, hand, hs]
    exact ((balanced_rendering columns c).apart_and s).symm
  · obtain ⟨s, hs⟩ := rendering_of_isConstant columns hr
    have hunfolded : Rendering.Apart
        (.ofBinary (l.rendering columns).plain .ne (r = null) (r.rendering columns).plain)
        (l.rendering columns) := by
      have hnull : decide (r = null) = false := by
        cases r with
        | number | text => rfl
        | _ => cases hr
      rw [hs, hnull]
      exact (balanced_rendering columns l).apart_ne s
    have hnot : (not (binary l op r)).rendering columns =
        ((binary l op r).rendering columns).negation := rfl
    rw [hnot, rendering_binary, rendering_binary]
    rcases heq with rfl | rfl
    · cases hop
      rw [if_neg (by simp), if_pos ⟨rfl, hr⟩, Rendering.negation_ofBinary rfl]
      exact hunfolded
    · cases hop
      rw [if_pos ⟨rfl, hr⟩, if_neg (by simp),
        ← Rendering.negation_ofBinary (rfl : Operator.ne.reverse? = some .eq)]
      exact hunfolded.symm.negation

namespace Context

def rendering (C : Context) (hole : Rendering) : Rendering :=
  C.foldl (fun hole F => F.rendering columns hole) hole

/-- Above the lowest node no node sees anything, since no node is a constant. -/
theorem rendering_fill (C : Context) {e : Expr} (h : ∀ F : Frame, F.sees e = false) :
    (C.fill e).rendering columns = C.rendering columns (e.rendering columns) := by
  induction C generalizing e with
  | nil => rfl
  | cons F C ih =>
    have hrest := ih fun G => Frame.sees_around G F e
    rw [F.rendering_around columns (h F)] at hrest
    exact hrest

theorem apart_rendering (C : Context) {hole hole' : Rendering} (h : hole.Apart hole') :
    (C.rendering columns hole).Apart (C.rendering columns hole') := by
  induction C generalizing hole hole' with
  | nil => exact h
  | cons F C ih => exact ih (F.apart_rendering columns h)

theorem rendering_fill_eq (C : Context) {e e' : Expr} (h : Rewrites e e')
    (hexposes : C.exposes e e' = false) :
    (C.fill e).rendering columns = (C.fill e').rendering columns := by
  obtain ⟨ho, hsees⟩ := Bool.or_eq_false_iff.mp hexposes
  have heq := h.rendering_eq columns ho
  cases C with
  | nil => exact heq
  | cons F C =>
    have hlowest : (F.around e).rendering columns = (F.around e').rendering columns := by
      rw [F.rendering_around columns (h.sees_eq_false F), F.rendering_around columns hsees, heq]
    change (Context.fill C (F.around e)).rendering columns =
      (Context.fill C (F.around e')).rendering columns
    rw [rendering_fill columns C fun G => Frame.sees_around G F e,
      rendering_fill columns C fun G => Frame.sees_around G F e', hlowest]

theorem apart_fill (C : Context) {e e' : Expr} (h : Rewrites e e')
    (hexposes : C.exposes e e' = true) :
    ((C.fill e).rendering columns).Apart ((C.fill e').rendering columns) := by
  cases ho : overruled e e' with
  | true =>
    rw [rendering_fill columns C h.sees_eq_false,
      rendering_fill columns C (h.sees_eq_false_of_overruled ho)]
    exact C.apart_rendering columns (h.apart_of_overruled columns ho)
  | false =>
    cases C with
    | nil => simp [exposes, ho] at hexposes
    | cons F C =>
      have hsees : F.sees e' = true := by simpa [exposes, ho] using hexposes
      have hlowest : ((F.around e).rendering columns).Apart ((F.around e').rendering columns) := by
        rw [F.rendering_around columns (h.sees_eq_false F), h.rendering_eq columns ho]
        exact F.apart_around columns hsees
      change ((Context.fill C (F.around e)).rendering columns).Apart
        ((Context.fill C (F.around e')).rendering columns)
      rw [rendering_fill columns C fun G => Frame.sees_around G F e,
        rendering_fill columns C fun G => Frame.sees_around G F e']
      exact apart_rendering columns C hlowest

/-- Replacing a part of an expression by its equal changes neither whether the whole is rendered,
nor how it fails, nor its parameters. It changes the text exactly if the replacement is overruled
by another rule or is seen by the node above: otherwise the rendering is the same, and where it is
exposed the texts differ in every style and behind any number of parameters. -/
theorem render_fill (C : Context) {e e' : Expr} (h : Rewrites e e') :
    ((C.fill e).render columns).map Sql.params = ((C.fill e').render columns).map Sql.params ∧
      (C.exposes e e' = false → (C.fill e).render columns = (C.fill e').render columns) ∧
      (C.exposes e e' = true → ∀ s s', (C.fill e).render columns = .ok s →
        (C.fill e').render columns = .ok s' → ∀ style bound,
          s.written style bound ≠ s'.written style bound) := by
  cases hexposes : C.exposes e e' with
  | false =>
    have heq : (C.fill e).render columns = (C.fill e').render columns :=
      congrArg Rendering.plain (C.rendering_fill_eq columns h hexposes)
    exact ⟨by rw [heq], fun _ => heq, nofun⟩
  | true =>
    have hapart := (C.apart_fill columns h hexposes).plain
    exact ⟨hapart.map_params, nofun, fun _ s s' hs hs' => hapart.written_ne hs hs'⟩

end Context

end Columns

namespace Context

/-- A choice between 0 and 1 under a connective under a negation. -/
theorem render_fill_pending :
    let columns (name : String) := if name = "done" then some "T1.done" else none
    let done := named "done" none
    let C : Context := [.andRight (binary (named "size" (some (.int64 7))) .lt (number "9")), .not]
    let e := caseWhen done (number "0") (number "1")
    Rewrites e (not done) ∧ C.exposes e (not done) = false ∧
      ((C.fill e).render columns).map (Sql.written .positional 0) =
        .ok "NOT (((? < 9) AND NOT (T1.done)))" := by
  intro columns done C e
  have hrule : Rewrites e (not done) := .caseNot rfl rfl
  have hexposes : C.exposes e (not done) = false := by decide
  obtain ⟨-, hsame, -⟩ := render_fill columns C hrule
  refine ⟨hrule, hexposes, ?_⟩
  rw [hsame hexposes]
  rfl

/-- A right side that folds to `NULL` is compared with; one that is `NULL` is tested for. A right
side and a branch that fold to 0 are not taken for it. A choice between 0 and 1 is no connective,
and a test for 0 is not what the negation of `x = 0` is written as. -/
theorem render_fill_exposed :
    let written (e : Expr) := (e.render some).map (Sql.written .positional 0)
    let x := named "x" none
    let zero := number "0"
    let one := number "1"
    let isNull : Context := [.binaryRight x .eq]
    let isZero : Context := [.binaryRight x .ne]
    let choice : Context := [.caseTrue x one]
    (Rewrites (binary null .ne zero) null ∧
      written (isNull.fill (binary null .ne zero)) = .ok "(x = NULL)" ∧
      written (isNull.fill null) = .ok "(x IS NULL)") ∧
    (Rewrites (binary zero .ne zero) zero ∧
      written (isZero.fill (binary zero .ne zero)) = .ok "(x <> 0)" ∧
      written (isZero.fill zero) = .ok "x" ∧
      written (choice.fill (binary zero .ne zero)) = .ok "CASE WHEN x THEN 0 ELSE 1 END" ∧
      written (choice.fill zero) = .ok "NOT (x)") ∧
    (Rewrites (caseWhen x zero one) (and (not x) one) ∧
      written (caseWhen x zero one) = .ok "NOT (x)" ∧
      written (and (not x) one) = .ok "(NOT (x) AND 1)") ∧
    Rewrites (not (binary x .eq zero)) (binary x .ne zero) ∧
      written (not (binary x .eq zero)) = .ok "(x <> 0)" ∧
      written (binary x .ne zero) = .ok "x" := by
  intro written x zero one isNull isZero choice
  refine ⟨⟨.neZero rfl, ?_, ?_⟩, ⟨.neZero rfl, ?_, ?_, ?_, ?_⟩, ⟨.caseAnd rfl, ?_, ?_⟩,
    .notComparison rfl, ?_, ?_⟩
  all_goals rfl

end Context

end RecordMapper.Expr
