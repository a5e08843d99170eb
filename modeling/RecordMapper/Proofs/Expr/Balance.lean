import RecordMapper.Expr.Rendering
import RecordMapper.Proofs.Statement.Weight

/-!
# Renderings that differ

A rendering is put together from the renderings of the parts. Each part is written once, by itself
or by its negation, and the two weigh about the same. So a difference in weight between two parts
is found again in the whole. Where a folding rule applies to one of two renderings only, the weights
tell them apart.
-/

set_option autoImplicit false

namespace RecordMapper.Expr

/-- What stands behind the left side of `(left op right)`. -/
def renderRight (op : Operator) (rightIsNull : Bool) (right : Result Sql) : Result Sql :=
  match op, rightIsNull with
  | .eq, true => .ok (Sql.text " IS NULL)")
  | .ne, true => .ok (Sql.text " IS NOT NULL)")
  | _, _ => do return Sql.text (" " ++ op.sign ++ " ") ++ (← right) ++ Sql.text ")"

def renderCase (condition ifTrue ifFalse : Result Sql) : Result Sql := do
  let condition ← condition
  let ifTrue ← ifTrue
  let ifFalse ← ifFalse
  return Sql.text "CASE WHEN " ++ condition ++ Sql.text " THEN " ++ ifTrue ++
    Sql.text " ELSE " ++ ifFalse ++ Sql.text " END"

def renderElement (array index : Result Sql) : Result Sql := do
  let array ← array
  let index ← index
  return array ++ Sql.text "[" ++ index ++ Sql.text "]"

theorem renderRight_of_not_test {op : Operator} {rightIsNull : Bool}
    (heq : op = .eq → rightIsNull = true → False) (hne : op = .ne → rightIsNull = true → False)
    (right : Result Sql) : renderRight op rightIsNull right =
      (do return Sql.text (" " ++ op.sign ++ " ") ++ (← right) ++ Sql.text ")") := by
  unfold renderRight
  split
  · exact (heq rfl rfl).elim
  · exact (hne rfl rfl).elim
  · rfl

theorem renderBinary_eq_concat (left : Result Sql) (op : Operator) (rightIsNull : Bool)
    (right : Result Sql) : renderBinary left op rightIsNull right =
      Sql.concat [.ok (Sql.text "("), left, renderRight op rightIsNull right] := by
  cases left with
  | error e => rfl
  | ok l =>
    unfold renderBinary
    split
    · rfl
    · rfl
    · next heq hne =>
      rw [renderRight_of_not_test heq hne]
      cases right with
      | error e => rfl
      | ok r =>
        exact Sql.eq_concat_of_flatten
          [Sql.text "(", l, Sql.text (" " ++ op.sign ++ " ") ++ r ++ Sql.text ")"] (by simp)

theorem renderRight_eq_concat (op : Operator) (right : Result Sql) :
    renderRight op false right =
      Sql.concat [.ok (Sql.text (" " ++ op.sign ++ " ")), right, .ok (Sql.text ")")] := by
  have hnever : false = true → False := nofun
  rw [renderRight_of_not_test (fun _ => hnever) fun _ => hnever]
  cases right with
  | error e => rfl
  | ok r =>
    exact Sql.eq_concat_of_flatten [Sql.text (" " ++ op.sign ++ " "), r, Sql.text ")"] (by simp)

theorem renderBinary_false_eq_concat (left : Result Sql) (op : Operator) (right : Result Sql) :
    renderBinary left op false right =
      Sql.concat [.ok (Sql.text "("), left, .ok (Sql.text (" " ++ op.sign ++ " ")), right,
        .ok (Sql.text ")")] := by
  rw [renderBinary_eq_concat, renderRight_eq_concat]
  exact Sql.concat_append_concat [_, left] [_, right, _]

theorem renderLogical_eq_concat (left : Result Sql) (joiner : String) (right : Result Sql) :
    renderLogical left joiner right =
      Sql.concat [.ok (Sql.text "("), left, .ok (Sql.text joiner), right, .ok (Sql.text ")")] := by
  cases left with
  | error e => rfl
  | ok l =>
    cases right with
    | error e => rfl
    | ok r =>
      exact Sql.eq_concat_of_flatten
        [Sql.text "(", l, Sql.text joiner, r, Sql.text ")"] (by simp)

theorem renderCase_eq_concat (condition ifTrue ifFalse : Result Sql) :
    renderCase condition ifTrue ifFalse =
      Sql.concat [.ok (Sql.text "CASE WHEN "), condition, .ok (Sql.text " THEN "), ifTrue,
        .ok (Sql.text " ELSE "), ifFalse, .ok (Sql.text " END")] := by
  cases condition with
  | error e => rfl
  | ok c =>
    cases ifTrue with
    | error e => rfl
    | ok t =>
      cases ifFalse with
      | error e => rfl
      | ok f =>
        exact Sql.eq_concat_of_flatten [Sql.text "CASE WHEN ", c, Sql.text " THEN ", t,
          Sql.text " ELSE ", f, Sql.text " END"] (by simp)

theorem renderElement_eq_concat (array index : Result Sql) :
    renderElement array index =
      Sql.concat [array, .ok (Sql.text "["), index, .ok (Sql.text "]")] := by
  cases array with
  | error e => rfl
  | ok a =>
    cases index with
    | error e => rfl
    | ok i =>
      exact Sql.eq_concat_of_flatten [a, Sql.text "[", i, Sql.text "]"] (by simp)

namespace Rendering

theorem negated_ofPlain_eq_concat (plain : Result Sql) : (ofPlain plain).negated =
    Sql.concat [.ok (Sql.text "NOT ("), plain, .ok (Sql.text ")")] := by
  cases plain with
  | error e => rfl
  | ok s =>
    exact Sql.eq_concat_of_flatten [Sql.text "NOT (", s, Sql.text ")"] (by simp)

def negation (r : Rendering) : Rendering := ⟨r.negated, r.plain⟩

def ofBinary (left : Result Sql) (op : Operator) (rightIsNull : Bool) (right : Result Sql) :
    Rendering :=
  match op.reverse? with
  | some reversed =>
    ⟨renderBinary left op rightIsNull right, renderBinary left reversed rightIsNull right⟩
  | none => .ofPlain (renderBinary left op rightIsNull right)

theorem negation_ofBinary {op reversed : Operator} (h : op.reverse? = some reversed)
    (left : Result Sql) (rightIsNull : Bool) (right : Result Sql) :
    (ofBinary left op rightIsNull right).negation = ofBinary left reversed rightIsNull right := by
  rw [ofBinary, ofBinary, h, Operator.reverse?_reverse? h]
  rfl

/-- Only `=` and `<>` are tests for `NULL`. -/
theorem ofBinary_of_not_equality {op : Operator} (h : (op = .eq || op = .ne : Bool) = false)
    (left : Result Sql) (rightIsNull : Bool) (right : Result Sql) :
    ofBinary left op rightIsNull right = ofBinary left op false right := by
  cases op with
  | eq | ne => cases h
  | _ => cases rightIsNull <;> rfl

/-- The negation weighs about as much, and has the same parameters. -/
def Balanced (r : Rendering) : Prop := Sql.Near r.plain r.negated

theorem balanced_ofPlain (plain : Result Sql) : (ofPlain plain).Balanced := by
  cases plain with
  | error e => rfl
  | ok s =>
    refine ⟨by simp, ?_⟩
    have hnot : textWeight "NOT (" = 5 := by decide
    have hclose : textWeight ")" = 1 := by decide
    simp only [Sql.weight_append, Sql.weight_text, hnot, hclose]
    omega

theorem near_renderRight_reversed {op reversed : Operator} (h : op.reverse? = some reversed)
    (rightIsNull : Bool) (right : Result Sql) :
    Sql.Near (renderRight op rightIsNull right) (renderRight reversed rightIsNull right) := by
  have hsign : Sql.Near (.ok (Sql.text (" " ++ op.sign ++ " ")))
      (.ok (Sql.text (" " ++ reversed.sign ++ " "))) := by
    cases op <;> cases h <;> exact ⟨rfl, by decide⟩
  have hcompared : Sql.Near (renderRight op false right) (renderRight reversed false right) := by
    rw [renderRight_eq_concat, renderRight_eq_concat]
    exact .concat [] hsign [_, _]
  have htest : Sql.Near (.ok (Sql.text " IS NULL)")) (.ok (Sql.text " IS NOT NULL)")) :=
    ⟨rfl, by decide⟩
  cases rightIsNull with
  | false => exact hcompared
  | true =>
    cases op with
    | eq => cases h; exact htest
    | ne => cases h; exact htest.symm
    | gt | ge | lt | le => cases h; exact hcompared
    | add | sub | mul | div | mod => cases h

theorem balanced_ofBinary (left : Result Sql) (op : Operator) (rightIsNull : Bool)
    (right : Result Sql) : (ofBinary left op rightIsNull right).Balanced := by
  unfold ofBinary
  cases hop : op.reverse? with
  | none => exact balanced_ofPlain _
  | some reversed =>
    change Sql.Near (renderBinary left op rightIsNull right)
      (renderBinary left reversed rightIsNull right)
    rw [renderBinary_eq_concat, renderBinary_eq_concat]
    exact .concat [_, left] (near_renderRight_reversed hop rightIsNull right) []

/-- The renderings differ at both polarities wherever they succeed. -/
structure Apart (r r' : Rendering) : Prop where
  plain : Sql.Apart r.plain r'.plain
  negated : Sql.Apart r.negated r'.negated

theorem Apart.negation {r r' : Rendering} (h : r.Apart r') : r.negation.Apart r'.negation :=
  ⟨h.negated, h.plain⟩

theorem Apart.ofPlain {x y : Result Sql} (h : Sql.Apart x y) :
    (Rendering.ofPlain x).Apart (Rendering.ofPlain y) := by
  refine ⟨h, ?_⟩
  rw [negated_ofPlain_eq_concat, negated_ofPlain_eq_concat]
  exact .concat [_] h [_]

theorem Apart.ofBinary {left left' right right' : Result Sql} {rightIsNull : Bool} (op : Operator)
    (h : ∀ op, Sql.Apart (renderBinary left op rightIsNull right)
      (renderBinary left' op rightIsNull right')) :
    (Rendering.ofBinary left op rightIsNull right).Apart
      (Rendering.ofBinary left' op rightIsNull right') := by
  unfold Rendering.ofBinary
  cases op.reverse? with
  | none => exact .ofPlain (h op)
  | some reversed => exact ⟨h op, h reversed⟩

theorem Apart.symm {r r' : Rendering} (h : r.Apart r') : r'.Apart r :=
  ⟨Sql.Apart.symm h.plain, Sql.Apart.symm h.negated⟩

theorem heavier_negated (x : Result Sql) : Sql.Heavier 5 (ofPlain x).negated x := by
  rw [negated_ofPlain_eq_concat]
  exact Sql.heavier_concat ["NOT ("] [")"] x (by decide)

theorem heavier_renderBinary_ne (x : Result Sql) (constant : String) :
    Sql.Heavier 5 (renderBinary x .ne false (.ok (Sql.text constant))) x := by
  rw [renderBinary_false_eq_concat]
  refine Sql.heavier_concat ["("] [_, constant, ")"] x ?_
  simp [textWeight, charWeight, Operator.sign]
  omega

theorem heavier_renderBinary_eq (x : Result Sql) (constant : String) :
    Sql.Heavier 6 (renderBinary x .eq false (.ok (Sql.text constant))) x := by
  rw [renderBinary_false_eq_concat]
  refine Sql.heavier_concat ["("] [_, constant, ")"] x ?_
  simp [textWeight, charWeight, Operator.sign]
  omega

theorem heavier_renderAnd (x : Result Sql) (constant : String) :
    Sql.Heavier 6 (renderLogical x " AND " (.ok (Sql.text constant))) x := by
  rw [renderLogical_eq_concat]
  refine Sql.heavier_concat ["("] [" AND ", constant, ")"] x ?_
  simp [textWeight, charWeight]
  omega

theorem heavier_renderCase (x : Result Sql) (ifTrue ifFalse : String) :
    Sql.Heavier 6 (renderCase x (.ok (Sql.text ifTrue)) (.ok (Sql.text ifFalse))) x := by
  rw [renderCase_eq_concat]
  refine Sql.heavier_concat ["CASE WHEN "] [" THEN ", ifTrue, " ELSE ", ifFalse, " END"] x ?_
  simp [textWeight, charWeight]
  omega

theorem heavier_renderCase_renderAnd (x : Result Sql) (ifTrue : String) (ifFalse : Result Sql) :
    Sql.Heavier 6 (renderCase x (.ok (Sql.text ifTrue)) ifFalse)
      (renderLogical x " AND " ifFalse) := by
  cases x with
  | error e => rfl
  | ok s =>
    cases ifFalse with
    | error e => rfl
    | ok f =>
      refine ⟨by simp, ?_⟩
      simp [textWeight, charWeight]
      omega

theorem apart_renderBinary_null {op : Operator} (h : op = .eq ∨ op = .ne) (left : Result Sql) :
    Sql.Apart (renderBinary left op false (.ok (Sql.text "NULL")))
      (renderBinary left op true (.ok (Sql.text "NULL"))) := by
  have hright : Sql.Apart (renderRight op false (.ok (Sql.text "NULL")))
      (renderRight op true (.ok (Sql.text "NULL"))) := by
    rcases h with rfl | rfl
    · exact ⟨rfl, by decide⟩
    · exact ⟨rfl, by decide⟩
  rw [renderBinary_eq_concat, renderBinary_eq_concat]
  exact .concat [_, left] hright []

/-- A comparison with `NULL` that is not a test for it. -/
theorem apart_null {op : Operator} (h : op = .eq ∨ op = .ne) (left : Result Sql) :
    (ofBinary left op false (.ok (Sql.text "NULL"))).Apart
      (ofBinary left op true (.ok (Sql.text "NULL"))) := by
  have heq := apart_renderBinary_null (.inl rfl) left
  have hne := apart_renderBinary_null (.inr rfl) left
  rcases h with rfl | rfl
  · exact ⟨heq, hne⟩
  · exact ⟨hne, heq⟩

section Balanced
variable {r : Rendering} (h : r.Balanced) (constant another : String)
include h

/-- A test for 0 that is not folded. -/
theorem Balanced.apart_ne : (ofBinary r.plain .ne false (.ok (Sql.text constant))).Apart r where
  plain := (heavier_renderBinary_ne r.plain constant).apart
  negated := (heavier_renderBinary_eq r.plain constant).apart_of_near (by decide) h

/-- A choice between 0 and 1 that is taken for a choice between 0 and any other. -/
theorem Balanced.apart_and :
    (ofPlain (renderLogical r.negated " AND " (.ok (Sql.text constant)))).Apart r.negation where
  plain := (heavier_renderAnd r.negated constant).apart
  negated :=
    ((heavier_negated _).trans (heavier_renderAnd r.negated constant)).apart_of_near (by decide)
      h.symm

/-- A choice between 1 and 0 that is not folded. -/
theorem Balanced.apart_case :
    (ofPlain (renderCase r.plain (.ok (Sql.text constant)) (.ok (Sql.text another)))).Apart r where
  plain := (heavier_renderCase r.plain constant another).apart
  negated :=
    ((heavier_negated _).trans (heavier_renderCase r.plain constant another)).apart_of_near
      (by decide) h

/-- A choice between 0 and 1 that is not folded. -/
theorem Balanced.apart_case_negation :
    (ofPlain (renderCase r.plain (.ok (Sql.text constant)) (.ok (Sql.text another)))).Apart
      r.negation where
  plain := (heavier_renderCase r.plain constant another).apart_of_near (by decide) h
  negated := ((heavier_negated _).trans (heavier_renderCase r.plain constant another)).apart

/-- A choice between 0 and any other that is not folded. -/
theorem Balanced.apart_case_and (ifFalse : Result Sql) :
    (ofPlain (renderCase r.plain (.ok (Sql.text constant)) ifFalse)).Apart
      (ofPlain (renderLogical r.negated " AND " ifFalse)) := by
  have hnear : Sql.Near (renderLogical r.plain " AND " ifFalse)
      (renderLogical r.negated " AND " ifFalse) := by
    rw [renderLogical_eq_concat, renderLogical_eq_concat]
    exact .concat [_] h [_, _, _]
  exact .ofPlain ((heavier_renderCase_renderAnd r.plain constant ifFalse).apart_of_near (by decide)
    hnear)

end Balanced

end Rendering

section Exchange
variable {x y : Result Sql} (other another : Result Sql)

theorem apart_renderBinary_left (op : Operator) (rightIsNull : Bool) (h : Sql.Apart x y) :
    Sql.Apart (renderBinary x op rightIsNull other) (renderBinary y op rightIsNull other) := by
  rw [renderBinary_eq_concat, renderBinary_eq_concat]
  exact .concat [_] h [_]

theorem apart_renderBinary_right (op : Operator) (h : Sql.Apart x y) :
    Sql.Apart (renderBinary other op false x) (renderBinary other op false y) := by
  rw [renderBinary_false_eq_concat, renderBinary_false_eq_concat]
  exact .concat [_, _, _] h [_]

theorem apart_renderLogical_left (joiner : String) (h : Sql.Apart x y) :
    Sql.Apart (renderLogical x joiner other) (renderLogical y joiner other) := by
  rw [renderLogical_eq_concat, renderLogical_eq_concat]
  exact .concat [_] h [_, _, _]

theorem apart_renderLogical_right (joiner : String) (h : Sql.Apart x y) :
    Sql.Apart (renderLogical other joiner x) (renderLogical other joiner y) := by
  rw [renderLogical_eq_concat, renderLogical_eq_concat]
  exact .concat [_, _, _] h [_]

theorem apart_renderCase_condition (h : Sql.Apart x y) :
    Sql.Apart (renderCase x other another) (renderCase y other another) := by
  rw [renderCase_eq_concat, renderCase_eq_concat]
  exact .concat [_] h [_, _, _, _, _]

theorem apart_renderCase_true (h : Sql.Apart x y) :
    Sql.Apart (renderCase other x another) (renderCase other y another) := by
  rw [renderCase_eq_concat, renderCase_eq_concat]
  exact .concat [_, _, _] h [_, _, _]

theorem apart_renderCase_false (h : Sql.Apart x y) :
    Sql.Apart (renderCase other another x) (renderCase other another y) := by
  rw [renderCase_eq_concat, renderCase_eq_concat]
  exact .concat [_, _, _, _, _] h [_]

theorem apart_renderElement_left (h : Sql.Apart x y) :
    Sql.Apart (renderElement x other) (renderElement y other) := by
  rw [renderElement_eq_concat, renderElement_eq_concat]
  exact .concat [] h [_, _, _]

theorem apart_renderElement_right (h : Sql.Apart x y) :
    Sql.Apart (renderElement other x) (renderElement other y) := by
  rw [renderElement_eq_concat, renderElement_eq_concat]
  exact .concat [_, _] h [_]

end Exchange

section Columns
variable (columns : String → Option String)

theorem rendering_binary (l r : Expr) (op : Operator) :
    (binary l op r).rendering columns =
      if op = .ne ∧ r.isConstant "0" then l.rendering columns
      else .ofBinary (l.rendering columns).plain op (r = null) (r.rendering columns).plain := rfl

theorem rendering_caseWhen (c t f : Expr) :
    (caseWhen c t f).rendering columns =
      if t.isConstant "0" then
        if f.isConstant "1" then (c.rendering columns).negation
        else .ofPlain
          (renderLogical (c.rendering columns).negated " AND " (f.rendering columns).plain)
      else if t.isConstant "1" && f.isConstant "0" then c.rendering columns
      else .ofPlain (renderCase (c.rendering columns).plain (t.rendering columns).plain
        (f.rendering columns).plain) := rfl

theorem balanced_rendering (e : Expr) : (e.rendering columns).Balanced := by
  induction e with
  | number s => exact Rendering.balanced_ofPlain _
  | text s => exact Rendering.balanced_ofPlain _
  | null => exact Rendering.balanced_ofPlain _
  | named name value => exact Rendering.balanced_ofPlain _
  | binary l op r ihl ihr =>
    rw [rendering_binary]
    split
    · exact ihl
    · exact Rendering.balanced_ofBinary _ _ _ _
  | not e ih => exact ih.symm
  | and l r ihl ihr => exact Rendering.balanced_ofPlain _
  | or l r ihl ihr => exact Rendering.balanced_ofPlain _
  | caseWhen c t f ihc iht ihf =>
    rw [rendering_caseWhen]
    split
    · split
      · exact ihc.symm
      · exact Rendering.balanced_ofPlain _
    · split
      · exact ihc
      · exact Rendering.balanced_ofPlain _
  | arrayGet a i iha ihi => exact Rendering.balanced_ofPlain _

theorem rendering_of_isConstant {x : Expr} {literal : String} (h : x.isConstant literal = true) :
    ∃ s, x.rendering columns = .ofPlain (.ok (Sql.text s)) := by
  cases x with
  | number s => exact ⟨s, rfl⟩
  | text s => exact ⟨Text.literal s, rfl⟩
  | _ => simp [isConstant] at h

end Columns

end RecordMapper.Expr
