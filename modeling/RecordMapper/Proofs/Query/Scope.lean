import RecordMapper.Proofs.Query.Assignment
import RecordMapper.Proofs.Query.Clause
import RecordMapper.Proofs.Registry.History
import RecordMapper.Proofs.Workspace.Catalog

/-!
# Which columns a query may write

A query keeps the positions of columns, and finds them while it has fewer tables than in the end.
Whatever the calls are and in whatever order they come, each position is that of a column that
exists, and a condition of a join knows no table behind the one that is joined. So the names of
tables that a statement writes before columns are names it has given, each to one table.
-/

set_option autoImplicit false

namespace RecordMapper

open Lexeme

namespace Refill

theorem eq_or_mem_of_mem_enter {key : Key} {i : Nat} {keys : List (Key × Nat)} {entry : Key × Nat}
    (h : entry ∈ enter key i keys) : entry = (key, i) ∨ entry ∈ keys := by
  induction keys with
  | nil => exact .inl (List.mem_singleton.mp h)
  | cons first rest ih =>
    unfold enter at h
    split at h
    · rcases List.mem_cons.mp h with rfl | h
      · exact .inl rfl
      · exact .inr (List.mem_cons_of_mem first h)
    · rcases List.mem_cons.mp h with rfl | h
      · exact .inr List.mem_cons_self
      · exact (ih h).imp_right (List.mem_cons_of_mem first)

theorem snd_lt_of_fill {owner : Nat} {fields : List FieldMapping} {i : Nat} {seq : UInt32}
    {r s : Refill} (hfill : fill owner fields i seq r = (s, .ok ()))
    (h : ∀ entry ∈ r.keys, entry.2 < i) : ∀ entry ∈ s.keys, entry.2 < i + fields.length := by
  induction fields generalizing i seq r with
  | nil =>
    obtain ⟨rfl, -⟩ := Prod.mk.inj hfill
    exact h
  | cons f rest ih =>
    obtain ⟨settled, last, hf, -, hrest⟩ := fill_cons_eq_ok hfill
    have hentered : ∀ entry ∈ enter last i settled.keys, entry.2 < i + 1 := by
      intro entry hentry
      rcases eq_or_mem_of_mem_enter hentry with rfl | hentry
      · exact Nat.lt_succ_self i
      · rw [hf.keys_eq] at hentry
        exact Nat.lt_succ_of_lt (h entry hentry)
    have hall := ih hrest hentered
    rw [List.length_cons]
    intro entry hentry
    have hlt := hall entry hentry
    omega

end Refill

namespace Alias

/-- Whatever is known by its key stands at the position of a field. -/
def KnowsFields (a : Alias) : Prop :=
  ∀ entry ∈ a.registry.current, entry.2 < a.mapping.fields.length

theorem KnowsFields.refill {a : Alias} (h : a.KnowsFields) (counter : UInt32) :
    (a.refill counter).1.KnowsFields := by
  rcases houtcome : (a.refill counter).2.2 with e | ⟨⟩
  · obtain ⟨r, -, hg⟩ := Registry.generate_of_error houtcome
    have hregistry : (a.refill counter).1.registry = a.registry :=
      congrArg Generation.registry hg
    unfold KnowsFields
    rw [hregistry]
    exact h
  · obtain ⟨r, hfill, hg⟩ := Registry.generate_of_ok houtcome
    have hregistry : (a.refill counter).1.registry = a.registry.succeed r.keys :=
      congrArg Generation.registry hg
    have hentries := Refill.snd_lt_of_fill hfill (List.forall_mem_nil _)
    rw [Nat.zero_add] at hentries
    unfold KnowsFields
    rw [hregistry]
    exact hentries

theorem HasHistory.knowsFields {a : Alias} (h : a.HasHistory) : a.KnowsFields := by
  obtain ⟨blank, counters, hnew, rfl, -⟩ := h
  have hrefill (h : History) (hknown : h.subject.KnowsFields) (counter : UInt32) :
      (h.refill counter).subject.KnowsFields := by
    rcases houtcome : (h.subject.refill counter).2.2 with e | ⟨⟩
    · rw [History.refill_of_error houtcome]
      exact hknown.refill counter
    · rw [History.refill_of_ok houtcome]
      exact hknown.refill counter
  have extend (h : History) (hknown : h.subject.KnowsFields) :
      (counters.foldl History.refill h).subject.KnowsFields := by
    induction counters generalizing h with
    | nil => exact hknown
    | cons counter rest ih => exact ih (h.refill counter) (hrefill h hknown counter)
  refine extend { subject := blank } ?_
  unfold KnowsFields
  rw [hnew]
  exact List.forall_mem_nil _

/-- The alias belongs to some program, in the state that it has there at some time. Its latest
filling may have failed. -/
def IsMade (a : Alias) : Prop := ∃ acts complete, (a, complete) ∈ (Program.run acts).aliases

/-- Whatever the alias takes an argument for is one of its columns. -/
theorem IsMade.lt_of_lookup {a : Alias} (h : a.IsMade) {key : Option Key}
    {column : Option ColumnRef} {i : Nat} (hlookup : a.lookup key column = .current i) :
    i < a.table.columns.length := by
  obtain ⟨acts, complete, hmem⟩ := h
  have hmapping : a.mapping.Coherent := (Program.coherent_run acts).aliases _ hmem
  have hknown : a.KnowsFields := (Program.hasHistory_run acts _ hmem).knowsFields
  unfold lookup at hlookup
  split at hlookup
  · next c =>
    split at hlookup
    · next position hhandled =>
      obtain rfl := Lookup.current.inj hlookup
      exact Table.columnIndex?_lt (Option.ite_none_right_eq_some.mp hhandled).2
    · cases hlookup
  · next key =>
    rw [Registry.lookup_eq_current_iff] at hlookup
    obtain ⟨entry, hentry, rfl⟩ := Option.map_eq_some_iff.mp hlookup
    have hlt := hknown entry (List.mem_of_find?_eq_some hentry)
    have hlength : a.table.columns.length = a.mapping.fields.length := by
      rw [table, hmapping.columns, List.length_map]
    rw [hlength]
    exact hlt
  · cases hlookup

end Alias

namespace Query

/-- The query has a table in the position, and the table has the column. -/
def Has (q : Query) (p : ColumnPosition) : Prop := ∃ c, q.columnAt? p = some c

section Has
variable {q q' : Query} {p : ColumnPosition}

theorem columnAt?_eq (q : Query) (p : ColumnPosition) :
    q.columnAt? p = (q.sources[p.table]?).bind fun a => a.table.columns[p.column]? := by
  rw [columnAt?, tables, List.getElem?_map]
  cases q.sources[p.table]? with
  | none => rfl
  | some a => rfl

theorem has_iff :
    q.Has p ↔ ∃ a, q.sources[p.table]? = some a ∧ p.column < a.table.columns.length := by
  unfold Has
  rw [columnAt?_eq]
  constructor
  · rintro ⟨c, hc⟩
    obtain ⟨a, ha, hc⟩ := Option.bind_eq_some_iff.mp hc
    exact ⟨a, ha, (List.getElem?_eq_some_iff.mp hc).1⟩
  · rintro ⟨a, ha, hlt⟩
    refine ⟨a.table.columns[p.column], ?_⟩
    rw [ha, Option.bind_some]
    exact List.getElem?_eq_getElem hlt

theorem Has.table_lt (h : q.Has p) : p.table < q.sources.length := by
  obtain ⟨a, ha, -⟩ := has_iff.mp h
  exact (List.getElem?_eq_some_iff.mp ha).1

/-- A query that gets more tables keeps the columns that it has. -/
theorem Has.of_prefix (h : q.Has p) (hsources : q.sources <+: q'.sources) : q'.Has p := by
  obtain ⟨a, ha, hlt⟩ := has_iff.mp h
  obtain ⟨rest, hrest⟩ := hsources
  refine has_iff.mpr ⟨a, ?_, hlt⟩
  rw [← hrest, List.getElem?_append_left h.table_lt]
  exact ha

theorem has_congr (hsources : q'.sources = q.sources) : q'.Has = q.Has := by
  funext position
  unfold Has
  rw [columnAt?_eq, hsources, columnAt?_eq]

variable (hmade : ∀ a ∈ q.sources, a.IsMade)
include hmade

theorem has_of_resolve {arg : Argument} (h : q.resolve arg = .ok (some p)) : q.Has p := by
  obtain ⟨k, htable, hlookup, -⟩ :=
    (firstCurrent?_eq_some_iff 0 _ _).mp (firstCurrent?_of_resolve h)
  rw [Nat.zero_add] at htable
  rw [lookups, List.getElem?_map] at hlookup
  obtain ⟨a, ha, hlookup⟩ := Option.map_eq_some_iff.mp hlookup
  rw [← htable] at ha
  have hlt := (hmade a (List.mem_of_getElem? ha)).lt_of_lookup hlookup
  exact has_iff.mpr ⟨a, ha, hlt⟩

theorem has_of_column {arg : Argument} (h : q.column arg = .ok p) : q.Has p := by
  obtain ⟨found, hfound, h⟩ := Result.bind_eq_ok_iff.mp h
  cases found with
  | none => cases h
  | some position =>
    obtain rfl := Except.ok.inj h
    exact has_of_resolve hmade hfound

theorem mentions_of_operand {arg : Argument} {cx : Option FieldContext} {o : Operand}
    (h : q.operand arg cx = .ok o) : o.Mentions q.Has := by
  obtain ⟨found, hfound, h⟩ := Result.bind_eq_ok_iff.mp h
  cases found with
  | some position =>
    obtain rfl := Except.ok.inj h
    exact has_of_resolve hmade hfound
  | none =>
    obtain ⟨v, -, h⟩ := Result.bind_eq_ok_iff.mp h
    obtain rfl := Except.ok.inj h
    trivial

omit hmade in
theorem mentions_of_coerce {P : ColumnPosition → Prop} {left right coerced : Operand}
    (hleft : left.Mentions P) (h : q.coerce left right = .ok coerced) : coerced.Mentions P := by
  unfold coerce at h
  split at h
  · split at h
    · obtain ⟨v, -, rfl⟩ := Result.map_eq_ok_iff.mp h
      trivial
    · obtain rfl := Except.ok.inj h
      exact hleft
  · obtain rfl := Except.ok.inj h
    exact hleft

theorem mentions_of_tested {left : Argument} {test : Test} {condition : Predicate}
    (h : q.tested left test = .ok condition) : condition.Mentions q.Has := by
  obtain ⟨o, ho, h⟩ := Result.bind_eq_ok_iff.mp h
  have hleft := mentions_of_operand hmade ho
  cases test with
  | compare op right =>
    obtain ⟨r, hr, h⟩ := Result.bind_eq_ok_iff.mp h
    obtain ⟨coerced, hcoerced, h⟩ := Result.bind_eq_ok_iff.mp h
    obtain rfl := Except.ok.inj h
    exact ⟨mentions_of_coerce hleft hcoerced, mentions_of_operand hmade hr⟩
  | like pattern =>
    obtain rfl := Except.ok.inj h
    exact hleft
  | between low high =>
    obtain ⟨l, hl, h⟩ := Result.bind_eq_ok_iff.mp h
    obtain ⟨r, hr, h⟩ := Result.bind_eq_ok_iff.mp h
    obtain rfl := Except.ok.inj h
    exact ⟨hleft, mentions_of_operand hmade hl, mentions_of_operand hmade hr⟩
  | isNull negated =>
    obtain rfl := Except.ok.inj h
    exact hleft

omit hmade in
theorem has_of_findFrom {name : String}
    (h : Scope.findFrom name 0 q.tables = some p) : q.Has p := by
  have hfound (i : Nat) (ts : List Table) (h : Scope.findFrom name i ts = some p) :
      ∃ k t, p.table = i + k ∧ ts[k]? = some t ∧ p.column < t.columns.length := by
    induction ts generalizing i with
    | nil => cases h
    | cons t rest ih =>
      unfold Scope.findFrom at h
      split at h
      · next column hcolumn =>
        obtain rfl := Option.some.inj h
        exact ⟨0, t, rfl, rfl, Table.columnIndex?_lt hcolumn⟩
      · obtain ⟨k, found, htable, hk, hlt⟩ := ih (i + 1) h
        refine ⟨k + 1, found, ?_, hk, hlt⟩
        omega
  obtain ⟨k, t, htable, hk, hlt⟩ := hfound 0 q.tables h
  rw [Nat.zero_add] at htable
  rw [tables, List.getElem?_map, ← htable] at hk
  obtain ⟨a, ha, rfl⟩ := Option.map_eq_some_iff.mp hk
  exact has_iff.mpr ⟨a, ha, hlt⟩

end Has

/-- The condition has been found when the last table was in position `last`. -/
structure IsOn (last : Nat) (condition : Predicate) : Prop where
  notExpr : ∀ e, condition ≠ .expr e
  mentions : condition.Mentions fun p => p.table ≤ last

/-- What holds of a list with one more element, told by positions. -/
theorem forall_getElem?_concat {α : Type} {P : Nat → α → Prop} {xs : List α} {x : α} :
    (∀ i y, (xs ++ [x])[i]? = some y → P i y) ↔
      (∀ i y, xs[i]? = some y → P i y) ∧ P xs.length x := by
  constructor
  · intro h
    refine ⟨fun i y hy => h i y ?_, h xs.length x List.getElem?_concat_length⟩
    rw [List.getElem?_append_left (List.getElem?_eq_some_iff.mp hy).1]
    exact hy
  · rintro ⟨hxs, hx⟩ i y hy
    rcases Nat.lt_or_ge i xs.length with hi | hi
    · rw [List.getElem?_append_left hi] at hy
      exact hxs i y hy
    · have hlt := (List.getElem?_eq_some_iff.mp hy).1
      rw [List.length_append, List.length_singleton] at hlt
      obtain rfl : i = xs.length := by omega
      rw [List.getElem?_concat_length] at hy
      obtain rfl := Option.some.inj hy
      exact hx

theorem addOn_concat {q : Query} {init : List Join} {last : Join} (h : q.joins = init ++ [last])
    (p : Predicate) :
    q.addOn p = { q with joins := init ++ [{ last with on := last.on ++ [p] }] } := by
  unfold addOn
  rw [h, List.getLast?_concat, List.dropLast_concat]

/-- All positions that the query keeps are those of columns, and no condition of a join goes
beyond the table that is joined. -/
structure InScope (q : Query) : Prop where
  made : ∀ a ∈ q.sources, a.IsMade
  conditions : q.Conditions (Predicate.Mentions q.Has)
  on : ∀ i j, q.joins[i]? = some j → ∀ p ∈ j.on, IsOn (i + 1) p
  grouping : ∀ p ∈ q.grouping, q.Has p
  ordering : ∀ item ∈ q.ordering, q.Has item.1
  assignments : ∀ a ∈ q.assignments, q.Has a.1

namespace InScope
variable {q : Query}

theorem start {source : Alias} (h : source.IsMade) : InScope { source } where
  made := List.forall_mem_singleton.mpr h
  conditions := ⟨List.forall_mem_nil _, List.forall_mem_nil _⟩
  on := nofun
  grouping := List.forall_mem_nil _
  ordering := List.forall_mem_nil _
  assignments := List.forall_mem_nil _

theorem fail (h : q.InScope) (e : Error) : (q.fail e).InScope :=
  ⟨h.made, ⟨h.conditions.filters, h.conditions.joins⟩, h.on, h.grouping, h.ordering, h.assignments⟩

theorem call {α : Type} (h : q.InScope) {made : Result α} {change : Query → α → Query}
    (hchange : ∀ a, made = .ok a → (change q a).InScope) : (q.call made change).InScope := by
  unfold Query.call
  split
  · next a => exact hchange a rfl
  · next e => exact h.fail e

theorem joined (h : q.InScope) (kind : JoinKind) {source : Alias} (hsource : source.IsMade) :
    InScope { q with joins := q.joins ++ [{ kind, source }] } := by
  have hsources : sources { q with joins := q.joins ++ [{ kind, source }] } =
      q.sources ++ [source] := by
    rw [sources, sources, List.map_append]
    rfl
  have hhas (p : ColumnPosition) (hp : q.Has p) :
      Has { q with joins := q.joins ++ [{ kind, source }] } p := by
    refine hp.of_prefix ?_
    rw [hsources]
    exact List.prefix_append _ _
  constructor
  case made =>
    rw [hsources]
    exact List.forall_mem_append.mpr ⟨h.made, List.forall_mem_singleton.mpr hsource⟩
  case conditions =>
    refine ⟨fun f hf => (h.conditions.filters f hf).mono hhas, fun j hj p hp => ?_⟩
    rcases List.mem_append.mp hj with hj | hj
    · exact (h.conditions.joins j hj p hp).mono hhas
    · obtain rfl := List.mem_singleton.mp hj
      exact absurd hp List.not_mem_nil
  case on => exact forall_getElem?_concat.mpr ⟨h.on, List.forall_mem_nil _⟩
  case grouping => exact fun p hp => hhas p (h.grouping p hp)
  case ordering => exact fun item hitem => hhas item.1 (h.ordering item hitem)
  case assignments => exact fun a ha => hhas a.1 (h.assignments a ha)

theorem addOn (h : q.InScope) {p : Predicate} (hp : p.Mentions q.Has) (hexpr : ∀ e, p ≠ .expr e) :
    (q.addOn p).InScope := by
  rcases List.eq_nil_or_concat q.joins with hnil | ⟨init, last, hjoins⟩
  · rw [Query.addOn, hnil]
    exact h.fail _
  · rw [List.concat_eq_append] at hjoins
    have hconditions := h.conditions.addOn hp
    have hon := h.on
    rw [hjoins] at hon
    obtain ⟨hinit, hlast⟩ := forall_getElem?_concat.mp hon
    -- There is no table yet behind the one of the last join.
    have hnew : IsOn (init.length + 1) p := by
      refine ⟨hexpr, hp.mono fun position hposition => ?_⟩
      have hlt := hposition.table_lt
      rw [sources, List.length_cons, List.length_map, hjoins, List.length_append,
        List.length_singleton] at hlt
      omega
    have hsources : (q.addOn p).sources = q.sources := by
      rw [addOn_concat hjoins, sources, sources, hjoins, List.map_append, List.map_append]
      rfl
    have hhas := has_congr hsources
    rw [addOn_concat hjoins] at hsources hhas hconditions ⊢
    constructor
    case made =>
      rw [hsources]
      exact h.made
    case conditions =>
      rw [hhas]
      exact hconditions
    case on =>
      exact forall_getElem?_concat.mpr
        ⟨hinit, List.forall_mem_append.mpr ⟨hlast, List.forall_mem_singleton.mpr hnew⟩⟩
    case grouping =>
      rw [hhas]
      exact h.grouping
    case ordering =>
      rw [hhas]
      exact h.ordering
    case assignments =>
      rw [hhas]
      exact h.assignments

theorem push (h : q.InScope) {p : Predicate} (hp : p.Mentions q.Has) (hexpr : ∀ e, p ≠ .expr e)
    (target : Target) : (q.push target p).InScope := by
  cases target with
  | filter c =>
    have hconditions := h.conditions.push hp (.filter c)
    exact ⟨h.made, ⟨hconditions.filters, hconditions.joins⟩, h.on, h.grouping, h.ordering,
      h.assignments⟩
  | on => exact h.addOn hp hexpr

theorem condition (h : q.InScope) (target : Target) (left : Argument) (test : Test) :
    (q.condition target left test).InScope := by
  refine h.call fun p hp => h.push (mentions_of_tested h.made hp) ?_ target
  obtain ⟨operand, -, hp⟩ := Result.bind_eq_ok_iff.mp hp
  exact predicate_ne_expr hp

theorem apply (h : q.InScope) {c : Call}
    (hc : ∀ kind source left test, c = .join kind source left test → source.IsMade) :
    (q.apply c).InScope := by
  cases c with
  | filter c left test => exact h.condition (.filter c) left test
  | filterExpr c e =>
    have hconditions : (q.filterExpr c e).Conditions (Predicate.Mentions q.Has) :=
      h.conditions.push (p := .expr e) trivial (.filter c)
    exact ⟨h.made, ⟨hconditions.filters, hconditions.joins⟩, h.on, h.grouping, h.ordering,
      h.assignments⟩
  | join kind source left test =>
    exact (h.joined kind (hc kind source left test rfl)).condition .on left test
  | groupBy field =>
    unfold Query.apply Query.groupBy
    refine h.call fun p hp => ?_
    have hgrouping : ∀ x ∈ q.grouping ++ [p], q.Has x :=
      List.forall_mem_append.mpr
        ⟨h.grouping, List.forall_mem_singleton.mpr (has_of_column h.made hp)⟩
    exact ⟨h.made, ⟨h.conditions.filters, h.conditions.joins⟩, h.on, hgrouping, h.ordering,
      h.assignments⟩
  | orderBy field descending =>
    unfold Query.apply Query.orderBy
    refine h.call fun p hp => ?_
    have hordering : ∀ item ∈ q.ordering ++ [(p, descending)], q.Has item.1 :=
      List.forall_mem_append.mpr
        ⟨h.ordering, List.forall_mem_singleton.mpr (has_of_column h.made hp)⟩
    exact ⟨h.made, ⟨h.conditions.filters, h.conditions.joins⟩, h.on, h.grouping, hordering,
      h.assignments⟩
  | set field value =>
    unfold Query.apply Query.set
    refine h.call fun a ha => ?_
    obtain ⟨p, hp, ha⟩ := Result.bind_eq_ok_iff.mp ha
    obtain ⟨v, -, ha⟩ := Result.bind_eq_ok_iff.mp ha
    obtain rfl := Except.ok.inj ha
    have hassignments : ∀ x ∈ q.assignments ++ [(p, v)], q.Has x.1 :=
      List.forall_mem_append.mpr
        ⟨h.assignments, List.forall_mem_singleton.mpr (has_of_column h.made hp)⟩
    exact ⟨h.made, ⟨h.conditions.filters, h.conditions.joins⟩, h.on, h.grouping, h.ordering,
      hassignments⟩
  | distinct | limitTo n | startAt n =>
    exact ⟨h.made, ⟨h.conditions.filters, h.conditions.joins⟩, h.on, h.grouping, h.ordering,
      h.assignments⟩

theorem run {source : Alias} {calls : List Call} (hsource : source.IsMade)
    (hcalls : ∀ kind joined left test, .join kind joined left test ∈ calls → joined.IsMade) :
    (run source calls).InScope := by
  have extend (q : Query) (h : q.InScope) : (calls.foldl Query.apply q).InScope := by
    induction calls generalizing q with
    | nil => exact h
    | cons c rest ih =>
      refine ih (fun kind joined left test hmem =>
        hcalls kind joined left test (List.mem_cons_of_mem c hmem)) _ (h.apply ?_)
      rintro kind joined left test rfl
      exact hcalls kind joined left test List.mem_cons_self
  exact extend { source } (start hsource)

/-- What is found when a statement is written exists as well. -/
theorem mentions (h : q.InScope) : q.Mentions q.Has where
  conditions := h.conditions
  grouping := h.grouping
  ordering := h.ordering
  assignments := h.assignments
  record _ hi := has_iff.mpr ⟨q.source, rfl, hi⟩
  argument _ _ hp := has_of_column h.made hp
  named _ _ hp := has_of_findFrom hp

end InScope

section Introduced
variable {q : Query} {d : Dialect} {s : Scope} {Q : String → Prop} {selected : List Lexeme}
  {statement : Statement}

@[simp] theorem introduced_append (a b : List StatementSection) :
    introduced (a ++ b) = introduced a ++ introduced b := List.filterMap_append

theorem introduced_eq_nil {words : List String} (hfrom : "FROM" ∉ words) (hjoin : "JOIN" ∉ words)
    {secs : List StatementSection} (h : ∀ sec ∈ secs, sec.1 ∈ words) : introduced secs = [] := by
  refine List.filterMap_eq_nil_iff.mpr fun sec hsec => if_neg ?_
  have hword := h sec hsec
  rintro (heq | heq)
  · rw [heq] at hword
    exact hfrom hword
  · rw [heq] at hword
    exact hjoin hword

@[simp] theorem introduced_filterSections (s : Scope) (filters : List (Connective × Predicate)) :
    introduced (s.filterSections filters) = [] := by
  unfold Scope.filterSections
  split
  · rfl
  · rfl

@[simp] theorem introduced_joinSections (s : Scope) (j : Join) (i : Nat) :
    introduced (s.joinSections j i) = [tableAlias i] := by
  have hkind : ¬ (j.kind.word = "FROM" ∨ j.kind.word = "JOIN") := by cases j.kind <;> decide
  have hon : introduced (s.onSections j.on) = [] := by
    unfold Scope.onSections
    split
    · rfl
    · rfl
  unfold Scope.joinSections
  rw [introduced_append, hon, List.append_nil, introduced, List.filterMap_cons, if_neg hkind]
  simp [word?]

/-- A statement that reads gives every table of the query its name, in order. -/
theorem introduced_eq (h : q.IsLaidOut s Q (q.selectFront d selected) statement) :
    introduced statement.sections = (List.range q.sources.length).map tableAlias := by
  obtain ⟨back, hback, hconsists⟩ := h.consists
  have hfront : introduced (q.selectFront d selected) = [tableAlias 0] := by
    simp [selectFront, introduced, word?]
  have hjoins : introduced (q.joins.zipIdx.flatMap fun item =>
      s.joinSections item.1 (item.2 + 1)) =
        (List.range q.joins.length).map fun i => tableAlias (i + 1) := by
    rw [introduced, List.filterMap_flatMap, List.range_eq_range', ← List.zipIdx_map_snd 0 q.joins,
      List.map_map, List.map_eq_flatMap]
    exact congrArg q.joins.zipIdx.flatMap
      (funext fun item => introduced_joinSections s item.1 (item.2 + 1))
  have hbehind : introduced back = [] := introduced_eq_nil (by decide) (by decide) hback
  rw [hconsists.sections_eq, introduced_append, introduced_append, introduced_append, hfront,
    hjoins, introduced_filterSections, hbehind, List.append_nil, List.append_nil, sources, List.length_cons,
    List.length_map, List.range_succ_eq_map, List.map_cons, List.map_map]
  rfl

/-- What stands behind the `ON` of a join names no table that comes later. -/
theorem exists_le_of_mem_qualifiers (hd : s.dialect.Delimits)
    (h : q.IsLaidOut s Q (q.selectFront d selected) statement)
    (hon : ∀ i j, q.joins[i]? = some j → ∀ p ∈ j.on, IsOn (i + 1) p) {i : Nat}
    {conditions : List (List Lexeme)}
    (hconditions : (joinConditions statement.sections)[i]? = some conditions)
    {condition : List Lexeme} (hcondition : condition ∈ conditions) :
    ∀ w ∈ qualifiers condition, ∃ k ≤ i + 1, w = tableAlias k := by
  rw [joinConditions_eq h, List.getElem?_map] at hconditions
  obtain ⟨j, hj, rfl⟩ := Option.map_eq_some_iff.mp hconditions
  obtain ⟨p, hp, rfl⟩ := List.mem_map.mp hcondition
  obtain ⟨sql, hsql, -⟩ := h.writes.joins j (List.mem_of_getElem? hj) p hp
  obtain ⟨hexpr, hmentions⟩ := hon i j hj p hp
  have hadmits : p.Mentions (s.Admits fun w => ∃ k ≤ i + 1, w = tableAlias k) :=
    hmentions.mono fun position hle _ => ⟨position.table, hle, rfl⟩
  have hwritten := Scope.isCondition_predicate hd (fun e he => absurd he (hexpr e)) hadmits
    (fun e he => absurd he (hexpr e)) hsql
  rw [Scope.condition_eq hsql]
  exact hwritten.body.qualifiers

end Introduced

/-- Whatever calls are made, every position that a query keeps, and every one it finds for a
statement, is that of a column of one of its tables; and the conditions of a join know the tables
up to the one that is joined. If the numbers of expressions are numerals, a statement that reads
introduces each table once, what stands before a column is one of the names introduced, and behind
an `ON` only those introduced by then are mentioned. -/
theorem columns_in_scope {source : Alias} {calls : List Call} (hsource : source.IsMade)
    (hcalls : ∀ kind joined left test, .join kind joined left test ∈ calls → joined.IsMade) :
    let q := run source calls
    q.Mentions q.Has ∧
      (∀ i j, q.joins[i]? = some j → ∀ p ∈ j.on, IsOn (i + 1) p) ∧
      ((∀ c e, .filterExpr c e ∈ calls → e.HasNumbers IsSignedNumeral) →
        ∀ p version request s, request.Reads → q.answer request (.ofProduct p version) = .ok s →
          introduced s.sections = (List.range q.sources.length).map tableAlias ∧
          (∀ w ∈ qualifiers s.lexemes, (introduced s.sections).count w = 1) ∧
          ∀ i conditions, (joinConditions s.sections)[i]? = some conditions →
            ∀ condition ∈ conditions, ∀ w ∈ qualifiers condition,
              ∃ k ≤ i + 1, w = tableAlias k) := by
  intro q
  have hscope : q.InScope := InScope.run hsource hcalls
  refine ⟨hscope.mentions, hscope.on, ?_⟩
  intro hnumbers p version request s hreads h
  have hnumerals : q.Conditions Predicate.HasNumerals := by
    refine conditions_run (fun p hp e he => absurd he (hp e)) source ?_
    intro c e hmem e' he'
    obtain rfl := Predicate.expr.inj he'
    exact hnumbers c e hmem
  have hadmits : ∀ position, q.Has position →
      (q.scopeOf (.ofProduct p version) request).Admits
        (fun w => ∃ i < q.sources.length, w = tableAlias i) position :=
    fun position hposition _ => ⟨position.table, hposition.table_lt, rfl⟩
  have hd := Dialect.delimits_ofProduct p version
  obtain ⟨front, hlaid, hfront⟩ := isLaidOut_answer (Dialect.orderly_ofProduct p version) hd
    hscope.mentions hnumerals hadmits h
  obtain ⟨selected, rfl⟩ := hfront hreads
  have hintroduced := introduced_eq hlaid
  refine ⟨hintroduced, fun w hw => ?_, fun i conditions hconditions condition hcondition => ?_⟩
  · obtain ⟨back, -, hconsists⟩ := hlaid.consists
    obtain ⟨i, hi, rfl⟩ := hconsists.forall_mem_qualifiers w hw
    have hnodup : ((List.range q.sources.length).map tableAlias).Nodup :=
      List.nodup_range.map fun _ _ => tableAlias_inj
    rw [hintroduced]
    exact List.count_eq_one_of_mem hnodup (List.mem_map_of_mem (List.mem_range.mpr hi))
  · have hdialect : (q.scopeOf (.ofProduct p version) request).dialect = .ofProduct p version := by
      cases request <;> rfl
    refine exists_le_of_mem_qualifiers ?_ hlaid hscope.on hconditions hcondition
    rw [hdialect]
    exact hd

def flagCalls : List Call :=
  [.filterExpr .and (.binary (.named "raised" none) .ne (.number "-1")),
    .join .left (flagAlias 1 2 8) ((flagAlias 1 2 8).reference flagNote.slot)
      (.compare .eq ((flagAlias 0 1 4).reference flagNote.slot)),
    .orderBy ((flagAlias 1 2 8).reference flagNote.slot) true]

def flagSql : String :=
  "SELECT T1.\"raised\", T1.\"note\" FROM \"Flag\" T1 LEFT JOIN \"Flag\" T2 " ++
    "ON (T2.\"note\" = T1.\"note\") WHERE (T1.\"raised\" <> -1) ORDER BY T2.\"note\" DESC"

theorem isMade_flagAlias : (flagAlias 0 1 4).IsMade ∧ (flagAlias 1 2 8).IsMade := by
  refine ⟨⟨flagActs, true, ?_⟩, ⟨flagActs, true, ?_⟩⟩
  · rw [aliases_flagActs]
    exact List.mem_cons_self
  · rw [aliases_flagActs]
    exact List.mem_cons_of_mem _ List.mem_cons_self

theorem columns_in_scope_flags :
    ∃ s, (run (flagAlias 0 1 4) flagCalls).answer .select (.ofProduct .sqlite .zero) = .ok s ∧
      s.sql = flagSql ∧
      introduced s.sections = ["T1", "T2"] ∧
      ∀ w ∈ qualifiers s.lexemes, w = "T1" ∨ w = "T2" := by
  have hcalls : ∀ kind joined left test, .join kind joined left test ∈ flagCalls →
      joined.IsMade := by
    intro kind joined left test hmem
    obtain ⟨-, rfl, -⟩ : kind = .left ∧ joined = flagAlias 1 2 8 ∧
        left = (flagAlias 1 2 8).reference flagNote.slot ∧
        test = .compare .eq ((flagAlias 0 1 4).reference flagNote.slot) := by
      simpa [flagCalls] using hmem
    exact isMade_flagAlias.2
  have hnumbers : ∀ c e, .filterExpr c e ∈ flagCalls → e.HasNumbers IsSignedNumeral := by
    intro c e hmem
    obtain ⟨-, rfl⟩ : c = .and ∧ e = .binary (.named "raised" none) .ne (.number "-1") := by
      simpa [flagCalls] using hmem
    exact ⟨trivial, rfl⟩
  have hanswer : ((run (flagAlias 0 1 4) flagCalls).answer .select (.ofProduct .sqlite .zero)).map
      Statement.sql = .ok flagSql := Result.eq_ok_of_toOption_eq_some (by decide +kernel)
  obtain ⟨s, hs, hsql⟩ := Result.map_eq_ok_iff.mp hanswer
  obtain ⟨-, -, hselect⟩ := columns_in_scope isMade_flagAlias.1 hcalls
  obtain ⟨hintroduced, hqualifiers, -⟩ := hselect hnumbers .sqlite .zero .select s trivial hs
  have hnames : introduced s.sections = ["T1", "T2"] := by
    rw [hintroduced]
    decide +kernel
  refine ⟨s, hs, hsql, hnames, fun w hw => ?_⟩
  have hmem : w ∈ introduced s.sections := by
    rw [← List.count_pos_iff, hqualifiers w hw]
    exact Nat.one_pos
  simpa [hnames] using hmem

/-- A number is written as it is, and may look like the column of a table that there is not. -/
theorem number_names_missing_table :
    (flagAlias 0 1 4).IsMade ∧
      ∃ s, (run (flagAlias 0 1 4) [.filterExpr .and (.number "T9.x")]).answer .select
          (.ofProduct .sqlite .zero) = .ok s ∧
        s.sql = "SELECT T1.\"raised\", T1.\"note\" FROM \"Flag\" T1 WHERE T9.x" ∧
        "T9" ∈ qualifiers s.lexemes ∧ introduced s.sections = ["T1"] := by
  have hanswer : ((run (flagAlias 0 1 4) [.filterExpr .and (.number "T9.x")]).answer .select
      (.ofProduct .sqlite .zero)).map (fun s =>
        (s.sql, qualifiers s.lexemes, introduced s.sections)) =
      .ok ("SELECT T1.\"raised\", T1.\"note\" FROM \"Flag\" T1 WHERE T9.x", ["T1", "T1", "T9"],
        ["T1"]) := Result.eq_ok_of_toOption_eq_some (by decide +kernel)
  obtain ⟨s, hs, hread⟩ := Result.map_eq_ok_iff.mp hanswer
  obtain ⟨hsql, hread⟩ := Prod.mk.inj hread
  obtain ⟨hqualifiers, hintroduced⟩ := Prod.mk.inj hread
  refine ⟨isMade_flagAlias.1, s, hs, hsql, ?_, hintroduced⟩
  rw [hqualifiers]
  decide

end Query

end RecordMapper
