import RecordMapper.Proofs.Query.Sections

/-!
# The conditions of a statement

Each condition stands by itself, and so what is read in the `WHERE` of a statement are the filters
of the query, with `AND` binding tighter than `OR`; what is read in an `ON` are the conditions of
its join.
-/

set_option autoImplicit false

namespace RecordMapper

open Lexeme

namespace Query

section Reading
variable {q : Query} {s : Scope} {Q : String → Prop} {front : List StatementSection}
  {statement : Statement}

theorem lookup_eq_none {words : List String} (hwhere : "WHERE" ∉ words)
    {secs : List StatementSection} (h : ∀ sec ∈ secs, sec.1 ∈ words) :
    secs.lookup "WHERE" = none := by
  rw [List.lookup_eq_none_iff]
  intro sec hsec
  rw [bne_iff_ne]
  intro hword
  rw [hword] at hwhere
  exact hwhere (h sec hsec)

theorem alternatives_eq (h : q.IsLaidOut s Q front statement) :
    statement.alternatives =
      Connective.grouped (q.filters.map fun f => (f.1, s.condition f.2)) := by
  obtain ⟨back, hback, hconsists⟩ := h.consists
  have hfront : front.lookup "WHERE" = none := lookup_eq_none (by decide) h.begins
  have hjoins : (q.joins.zipIdx.flatMap fun item =>
      s.joinSections item.1 (item.2 + 1)).lookup "WHERE" = none := by
    have hwhere : "WHERE" ∉ ["INNER", "LEFT", "JOIN", "ON"] := by decide
    refine lookup_eq_none hwhere ?_
    intro sec hsec
    obtain ⟨item, -, hsec⟩ := List.mem_flatMap.mp hsec
    exact Scope.word_of_mem_joinSections hsec
  have hbehind : back.lookup "WHERE" = none := lookup_eq_none (by decide) hback
  have hwrites := h.writes.filters
  rw [Statement.alternatives, hconsists.sections_eq, List.lookup_append, List.lookup_append,
    List.lookup_append, hfront, hjoins, hbehind, Option.none_or, Option.none_or, Option.or_none]
  generalize q.filters = filters at hwrites
  cases filters with
  | nil => rfl
  | cons first rest =>
    refine alternatives_chained (List.cons_ne_nil _ _) ?_
    intro item hitem
    obtain ⟨f, hf, rfl⟩ := List.mem_map.mp hitem
    exact (hwrites f hf).isSelfContained

theorem joinConditions_append {secs : List StatementSection} (h : ∀ sec ∈ secs, sec.1 ≠ "JOIN")
    (rest : List StatementSection) : joinConditions (secs ++ rest) = joinConditions rest := by
  induction secs with
  | nil => rfl
  | cons sec secs ih =>
    rw [List.cons_append, joinConditions, if_neg (h sec List.mem_cons_self)]
    exact ih fun x hx => h x (List.mem_cons_of_mem sec hx)

/-- The sections of a join show its conditions, if what comes behind them is no `ON`. -/
theorem joinConditions_join {j : Join} (hwrites : ∀ p ∈ j.on, s.Writes Q p) (i : Nat)
    {more : List StatementSection} (hmore : ∀ sec ∈ more.head?, sec.1 ≠ "ON") :
    joinConditions (s.joinSections j i ++ more) = j.on.map s.condition :: joinConditions more := by
  have hkind : j.kind.word ≠ "JOIN" := by cases j.kind <;> decide
  unfold Scope.joinSections
  rw [List.append_assoc, List.cons_append, joinConditions, if_neg hkind, List.cons_append,
    joinConditions, if_pos rfl, List.nil_append]
  by_cases hempty : j.on.isEmpty
  · rw [Scope.onSections, if_pos hempty, List.isEmpty_iff.mp hempty, List.nil_append, List.map_nil]
    cases more with
    | nil => rfl
    | cons next others =>
      rw [List.head?_cons]
      simp only [if_neg (hmore next rfl)]
  · have hne : j.on.map s.condition ≠ [] := by
      intro hnil
      exact hempty (List.isEmpty_iff.mpr (List.map_eq_nil_iff.mp hnil))
    have hconjuncts : conjuncts ([.word "AND"].intercalate (j.on.map s.condition)) =
        j.on.map s.condition := by
      refine pieces_intercalate hne ?_ ⟨rfl, rfl⟩ rfl
      intro item hitem
      obtain ⟨p, hp, rfl⟩ := List.mem_map.mp hitem
      exact (hwrites p hp).isSelfContained.isClosed_and
    rw [Scope.onSections, if_neg hempty, List.singleton_append, List.head?_cons, joinConditions,
      if_neg (by simp)]
    simp only [↓reduceIte, hconjuncts]

/-- By induction on the joins: what comes behind a join does not begin with `ON`. -/
theorem joinConditions_joins {joins : List Join} (hwrites : ∀ j ∈ joins, ∀ p ∈ j.on, s.Writes Q p)
    (n : Nat) {rest : List StatementSection}
    (hrest : ∀ sec ∈ rest, sec.1 ≠ "JOIN" ∧ sec.1 ≠ "ON") :
    joinConditions (((joins.zipIdx n).flatMap fun item => s.joinSections item.1 (item.2 + 1)) ++
      rest) = joins.map fun j => j.on.map s.condition := by
  induction joins generalizing n with
  | nil =>
    have hall := joinConditions_append (fun sec hsec => (hrest sec hsec).1) []
    rw [List.append_nil] at hall
    exact hall
  | cons j joins ih =>
    have hothers := ih (fun x hx => hwrites x (List.mem_cons_of_mem j hx)) (n + 1)
    have hhead : ∀ sec ∈ (((joins.zipIdx (n + 1)).flatMap fun item =>
        s.joinSections item.1 (item.2 + 1)) ++ rest).head?, sec.1 ≠ "ON" := by
      intro sec hsec
      cases joins with
      | nil => exact (hrest sec (List.mem_of_mem_head? hsec)).2
      | cons next others =>
        obtain rfl := Option.some.inj hsec
        cases next.kind <;> decide
    rw [List.zipIdx_cons, List.flatMap_cons, List.map_cons, List.append_assoc,
      joinConditions_join (hwrites j List.mem_cons_self) _ hhead, hothers]

theorem joinConditions_eq (h : q.IsLaidOut s Q front statement) :
    joinConditions statement.sections = q.joins.map fun j => j.on.map s.condition := by
  obtain ⟨back, hback, hconsists⟩ := h.consists
  have hrest : ∀ sec ∈ s.filterSections q.filters ++ back, sec.1 ≠ "JOIN" ∧ sec.1 ≠ "ON" := by
    intro sec hsec
    have hword : sec.1 ∈ "WHERE" :: backWords := by
      rcases List.mem_append.mp hsec with hsec | hsec
      · unfold Scope.filterSections at hsec
        split at hsec
        · exact absurd hsec List.not_mem_nil
        · obtain rfl := List.mem_singleton.mp hsec
          exact List.mem_cons_self
      · exact List.mem_cons_of_mem _ (hback sec hsec)
    have hne : ∀ w ∈ "WHERE" :: backWords, w ≠ "JOIN" ∧ w ≠ "ON" := by decide
    exact hne sec.1 hword
  have hfront : ∀ sec ∈ front, sec.1 ≠ "JOIN" := by
    intro sec hsec hword
    have hmem := h.begins sec hsec
    rw [hword] at hmem
    exact absurd hmem (by decide)
  rw [hconsists.sections_eq, List.append_assoc, List.append_assoc, joinConditions_append hfront]
  exact joinConditions_joins h.writes.joins 0 hrest

end Reading

/-- The filter that a call makes, if it makes one. -/
def filter? (q : Query) : Call → Option (Connective × Predicate)
  | .filter c left test => (q.tested left test).toOption.map (c, ·)
  | .filterExpr c e => some (c, .expr e)
  | _ => none

/-- The filters of all calls, in the order of the calls. -/
def filtersOf (q : Query) : List Call → List (Connective × Predicate)
  | [] => []
  | c :: rest => (q.filter? c).toList ++ filtersOf (q.apply c) rest

theorem filters_call {α : Type} {q : Query} {made : Result α} {change : Query → α → Query}
    (hchange : ∀ a, (change q a).filters = q.filters) :
    (q.call made change).filters = q.filters := by
  cases made with
  | ok a => exact hchange a
  | error e => rfl

@[simp] theorem filters_apply (q : Query) (c : Call) :
    (q.apply c).filters = q.filters ++ (q.filter? c).toList := by
  have hkept {changed : Query} (h : changed.filters = q.filters) :
      changed.filters = q.filters ++ [] := by rw [h, List.append_nil]
  cases c with
  | filter c left test =>
    change (q.call (q.tested left test) fun q p => q.push (.filter c) p).filters =
      q.filters ++ ((q.tested left test).toOption.map (c, ·)).toList
    cases q.tested left test with
    | ok p => rfl
    | error e => exact hkept rfl
  | filterExpr c e => rfl
  | join kind source left test =>
    refine hkept (filters_call (q := { q with joins := q.joins ++ [{ kind, source }] }) fun p => ?_)
    unfold push addOn
    dsimp only
    split <;> rfl
  | groupBy field => exact hkept (filters_call fun _ => rfl)
  | orderBy field descending => exact hkept (filters_call fun _ => rfl)
  | distinct => exact hkept rfl
  | limitTo n => exact hkept rfl
  | startAt n => exact hkept rfl
  | set field value => exact hkept (filters_call fun _ => rfl)

theorem filters_foldl (q : Query) (calls : List Call) :
    (calls.foldl apply q).filters = q.filters ++ q.filtersOf calls := by
  induction calls generalizing q with
  | nil => exact (List.append_nil _).symm
  | cons c rest ih =>
    rw [List.foldl_cons, ih, filters_apply, filtersOf, List.append_assoc]

theorem filters_run (source : Alias) (calls : List Call) :
    (run source calls).filters = filtersOf { source } calls := filters_foldl { source } calls

/-- Each condition of a query stands by itself wherever it is written. So the condition of a
statement is read as the filters, grouped by their connectives, and what each join has behind `ON`
as its own conditions. The filters are in the order of the calls. -/
theorem conditions_read_back {q : Query} (hq : q.Conditions Predicate.HasNumerals) (p : Product)
    (version : ProductVersion) :
    (∀ qualified, q.Conditions fun condition => ∀ sql,
      (q.scope (.ofProduct p version) qualified).predicate condition = .ok sql →
        IsSelfContained sql.lexemes) ∧
      (∀ request s, q.answer request (.ofProduct p version) = .ok s →
        (q.Conditions fun condition =>
          ∃ sql, (q.scopeOf (.ofProduct p version) request).predicate condition = .ok sql) ∧
        s.alternatives = Connective.grouped (q.filters.map fun f =>
          (f.1, (q.scopeOf (.ofProduct p version) request).condition f.2)) ∧
        joinConditions s.sections = q.joins.map fun j =>
          j.on.map (q.scopeOf (.ofProduct p version) request).condition) ∧
      ∀ source calls, q = run source calls → q.filters = filtersOf { source } calls := by
  have hd := Dialect.delimits_ofProduct p version
  have hmentions := mentions_all q
  refine ⟨fun qualified => ?_, fun request s h => ?_, ?_⟩
  · have hmay : q.Conditions ((q.scope (.ofProduct p version) qualified).MayWrite fun _ => True) :=
      mayWrite rfl hd hq hmentions fun _ _ _ => trivial
    exact ⟨fun f hf sql hsql => (hmay.filters f hf sql hsql).selfContained,
      fun j hj condition hp sql hsql => (hmay.joins j hj condition hp sql hsql).selfContained⟩
  · obtain ⟨front, hlaid, -⟩ := isLaidOut_answer (Q := fun _ => True)
      (Dialect.orderly_ofProduct p version) hd hmentions hq (fun _ _ _ => trivial) h
    refine ⟨⟨fun f hf => ?_, fun j hj condition hp => ?_⟩, alternatives_eq hlaid,
      joinConditions_eq hlaid⟩
    · obtain ⟨sql, hsql, -⟩ := hlaid.writes.filters f hf
      exact ⟨sql, hsql⟩
    · obtain ⟨sql, hsql, -⟩ := hlaid.writes.joins j hj condition hp
      exact ⟨sql, hsql⟩
  · rintro source calls rfl
    exact filters_run source calls

def craftyAlias (id : Nat) : Alias where
  id
  model := { id, typeName := "Crafty", initial := {}, description := .done }
  mapping :=
    ⟨{ name := "crafty"
       columns :=
        [{ name := ") OR (", fieldName := "mark", sqlType := .varchar },
          { name := "AND", fieldName := "size", sqlType := .integer }] }, []⟩
  record := {}

def craftyColumn (owner : Nat) (name : String) : Argument :=
  .column ⟨some owner, "crafty", name, .varchar, .name⟩

def craftyCalls : List Call :=
  [.join .left (craftyAlias 1) (craftyColumn 1 "AND") (.compare .lt (craftyColumn 0 "AND")),
    .filterExpr .or (.caseWhen (.binary (.named "size" none) .gt (.number "-1"))
      (.named "mark" none) (.text "' OR '")),
    .filter .and (craftyColumn 0 ") OR (") (.between (.text "a") (.text "b AND c")),
    .filter .or (craftyColumn 1 "AND") (.isNull true)]

def craftySql : String :=
  "SELECT COUNT(*) FROM \"crafty\" T1 LEFT JOIN \"crafty\" T2 ON (T2.\"AND\" < T1.\"AND\") " ++
    "WHERE CASE WHEN (T1.\"AND\" > -1) THEN T1.\") OR (\" ELSE ''' OR ''' END " ++
    "AND (T1.\") OR (\" BETWEEN ? AND ?) OR (T2.\"AND\" IS NOT NULL)"

theorem conditions_read_back_crafty :
    ∃ s, (run (craftyAlias 0) craftyCalls).answer .count (.ofProduct .h2 .zero) = .ok s ∧
      s.sql = craftySql ∧
      s.alternatives =
        [[[.word "CASE", .word "WHEN", .sign "(", .word "T1", .sign ".", .quoted '"' "AND",
            .sign ">", .sign "-", .number "1", .sign ")", .word "THEN", .word "T1", .sign ".",
            .quoted '"' ") OR (", .word "ELSE", .quoted '\'' "' OR '", .word "END"],
          [.sign "(", .word "T1", .sign ".", .quoted '"' ") OR (", .word "BETWEEN",
            .param (.text "a"), .word "AND", .param (.text "b AND c"), .sign ")"]],
        [[.sign "(", .word "T2", .sign ".", .quoted '"' "AND", .word "IS", .word "NOT",
            .word "NULL", .sign ")"]]] ∧
      joinConditions s.sections =
        [[[.sign "(", .word "T2", .sign ".", .quoted '"' "AND", .sign "<", .word "T1", .sign ".",
            .quoted '"' "AND", .sign ")"]]] := by
  have hnumbers : (run (craftyAlias 0) craftyCalls).Conditions Predicate.HasNumerals := by
    refine conditions_run (fun p hp e he => absurd he (hp e)) (craftyAlias 0) ?_
    intro c e hmem e' he'
    obtain rfl := Predicate.expr.inj he'
    obtain ⟨-, rfl⟩ : c = .or ∧ e = .caseWhen (.binary (.named "size" none) .gt (.number "-1"))
        (.named "mark" none) (.text "' OR '") := by
      simpa [craftyCalls] using hmem
    exact ⟨⟨trivial, rfl⟩, trivial, trivial⟩
  have hsql : ((run (craftyAlias 0) craftyCalls).answer .count (.ofProduct .h2 .zero)).map
      Statement.sql = .ok craftySql := Result.eq_ok_of_toOption_eq_some (by decide +kernel)
  obtain ⟨s, hs, hsql⟩ := Result.map_eq_ok_iff.mp hsql
  obtain ⟨-, halternatives, hjoins⟩ := (conditions_read_back hnumbers .h2 .zero).2.1 .count s hs
  refine ⟨s, hs, hsql, ?_, ?_⟩
  · rw [halternatives]
    decide +kernel
  · rw [hjoins]
    decide +kernel

end Query

end RecordMapper
