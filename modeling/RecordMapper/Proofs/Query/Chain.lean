import RecordMapper.Proofs.Result
import RecordMapper.Query.Chain

/-!
# The conditions of a chain of calls

A request is answered only if no call has failed, and then with the statement that is written for
it. What holds of every condition that a call can add holds of every condition of the query.
-/

set_option autoImplicit false

namespace RecordMapper

namespace Query

/-- The statement for a request, whether or not a call has failed. -/
def write (q : Query) (d : Dialect) : Request → Result Statement
  | .select => q.writeSelect .record d
  | .first => writeSelect { q with limit := q.limit.or (some 1) } .record d
  | .count => q.writeSelect .count d
  | .rows columns => do q.writeSelect (.columns (← columns.mapM q.column)) d
  | .update => q.writeUpdate d
  | .delete => q.writeDelete d

theorem error_of_checked {q : Query} {u : Unit} (h : q.checked = .ok u) : q.error = none := by
  unfold checked at h
  split at h
  · cases h
  · assumption

theorem write_of_answer {q : Query} {request : Request} {d : Dialect} {s : Statement}
    (h : q.answer request d = .ok s) : q.error = none ∧ q.write d request = .ok s := by
  obtain ⟨draft, hdraft, h⟩ := Result.bind_eq_ok_iff.mp h
  cases request with
  | rows columns =>
    obtain ⟨ps, hps, hdraft⟩ := Result.bind_eq_ok_iff.mp hdraft
    obtain ⟨_, hchecked, hdraft⟩ := Result.bind_eq_ok_iff.mp hdraft
    obtain rfl := Except.ok.inj hdraft
    exact ⟨error_of_checked hchecked, Result.bind_eq_ok_iff.mpr ⟨ps, hps, h⟩⟩
  | update =>
    obtain ⟨_, hchecked, hdraft⟩ := Result.bind_eq_ok_iff.mp hdraft
    refine ⟨error_of_checked hchecked, ?_⟩
    split at hdraft
    · split at hdraft
      · cases hdraft
      · obtain rfl := Except.ok.inj hdraft
        exact h
    · obtain rfl := Except.ok.inj hdraft
      cases h
  | delete =>
    obtain ⟨_, hchecked, hdraft⟩ := Result.bind_eq_ok_iff.mp hdraft
    refine ⟨error_of_checked hchecked, ?_⟩
    split at hdraft
    · obtain rfl := Except.ok.inj hdraft
      exact h
    · obtain rfl := Except.ok.inj hdraft
      cases h
  | _ =>
    obtain ⟨_, hchecked, hdraft⟩ := Result.bind_eq_ok_iff.mp hdraft
    obtain rfl := Except.ok.inj hdraft
    exact ⟨error_of_checked hchecked, h⟩

/-- What holds of all conditions, be they filters or conditions of joins. -/
structure Conditions (P : Predicate → Prop) (q : Query) : Prop where
  filters : ∀ f ∈ q.filters, P f.2
  joins : ∀ j ∈ q.joins, ∀ p ∈ j.on, P p

theorem predicate_ne_expr {q : Query} {left : Operand} {test : Test} {p : Predicate}
    (h : q.predicate left test = .ok p) (e : Expr) : p ≠ .expr e := by
  cases test with
  | compare op right =>
    obtain ⟨_, -, h⟩ := Result.bind_eq_ok_iff.mp h
    obtain ⟨_, -, h⟩ := Result.bind_eq_ok_iff.mp h
    obtain rfl := Except.ok.inj h
    exact nofun
  | like pattern =>
    obtain rfl := Except.ok.inj h
    exact nofun
  | between low high =>
    obtain ⟨_, -, h⟩ := Result.bind_eq_ok_iff.mp h
    obtain ⟨_, -, h⟩ := Result.bind_eq_ok_iff.mp h
    obtain rfl := Except.ok.inj h
    exact nofun
  | isNull negated =>
    obtain rfl := Except.ok.inj h
    exact nofun

section Conditions
variable {P : Predicate → Prop} {q : Query}

theorem Conditions.addOn (h : q.Conditions P) {p : Predicate} (hp : P p) :
    (q.addOn p).Conditions P := by
  unfold Query.addOn
  split
  · next last hlast =>
    refine ⟨h.filters, ?_⟩
    intro j hj
    rcases List.mem_append.mp hj with hj | hj
    · exact h.joins j (List.dropLast_subset _ hj)
    · obtain rfl := List.mem_singleton.mp hj
      intro x hx
      rcases List.mem_append.mp hx with hx | hx
      · exact h.joins last (List.mem_of_getLast? hlast) x hx
      · obtain rfl := List.mem_singleton.mp hx
        exact hp
  · exact ⟨h.filters, h.joins⟩

theorem Conditions.push (h : q.Conditions P) {p : Predicate} (hp : P p) (target : Target) :
    (q.push target p).Conditions P := by
  cases target with
  | filter c =>
    refine ⟨?_, h.joins⟩
    intro f hf
    rcases List.mem_append.mp hf with hf | hf
    · exact h.filters f hf
    · obtain rfl := List.mem_singleton.mp hf
      exact hp
  | on => exact h.addOn hp

theorem Conditions.call {α : Type} (h : q.Conditions P) {made : Result α}
    {change : Query → α → Query} (hchange : ∀ a, made = .ok a → (change q a).Conditions P) :
    (q.call made change).Conditions P := by
  unfold Query.call
  split
  · next a => exact hchange a rfl
  · exact ⟨h.filters, h.joins⟩

theorem Conditions.condition (h : q.Conditions P) (hP : ∀ p, (∀ e, p ≠ .expr e) → P p)
    (target : Target) (left : Argument) (test : Test) :
    (q.condition target left test).Conditions P := by
  refine h.call fun p hp => h.push (hP p fun e => ?_) target
  obtain ⟨operand, -, hp⟩ := Result.bind_eq_ok_iff.mp hp
  exact predicate_ne_expr hp e

theorem Conditions.apply (h : q.Conditions P) (hP : ∀ p, (∀ e, p ≠ .expr e) → P p) {c : Call}
    (hc : ∀ connective e, c = .filterExpr connective e → P (.expr e)) :
    (q.apply c).Conditions P := by
  cases c with
  | filter c left test => exact h.condition hP (.filter c) left test
  | filterExpr c e => exact h.push (hc c e rfl) (.filter c)
  | join kind source left test =>
    have hjoined : Conditions P { q with joins := q.joins ++ [{ kind, source }] } := by
      refine ⟨h.filters, ?_⟩
      intro j hj
      rcases List.mem_append.mp hj with hj | hj
      · exact h.joins j hj
      · obtain rfl := List.mem_singleton.mp hj
        exact fun p hp => absurd hp List.not_mem_nil
    exact hjoined.condition hP .on left test
  | groupBy field =>
    unfold Query.apply Query.groupBy
    exact h.call fun _ _ => ⟨h.filters, h.joins⟩
  | orderBy field descending =>
    unfold Query.apply Query.orderBy
    exact h.call fun _ _ => ⟨h.filters, h.joins⟩
  | distinct => exact ⟨h.filters, h.joins⟩
  | limitTo n => exact ⟨h.filters, h.joins⟩
  | startAt n => exact ⟨h.filters, h.joins⟩
  | set field value =>
    unfold Query.apply Query.set
    exact h.call fun _ _ => ⟨h.filters, h.joins⟩

theorem conditions_run (hP : ∀ p, (∀ e, p ≠ .expr e) → P p) (source : Alias) {calls : List Call}
    (hcalls : ∀ connective e, .filterExpr connective e ∈ calls → P (.expr e)) :
    (run source calls).Conditions P := by
  have hrun : ∀ q : Query, q.Conditions P → (calls.foldl Query.apply q).Conditions P := by
    induction calls with
    | nil => exact fun q h => h
    | cons c rest ih =>
      intro q h
      refine ih (fun connective e he => hcalls connective e (List.mem_cons_of_mem c he)) _ ?_
      refine h.apply hP ?_
      rintro connective e rfl
      exact hcalls connective e List.mem_cons_self
  exact hrun _ ⟨fun f hf => absurd hf List.not_mem_nil, fun j hj => absurd hj List.not_mem_nil⟩

end Conditions

end Query

end RecordMapper
