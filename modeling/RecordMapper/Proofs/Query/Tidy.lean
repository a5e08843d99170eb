import RecordMapper.Proofs.Dialect.Tidy
import RecordMapper.Proofs.Expr.Form
import RecordMapper.Proofs.Query.Chain

/-!
# The statements of queries are tidy

Expressions are tidy if their numbers hold no quotes and placeholder marks; all other parts of a
query are tidy whatever they hold. So every statement that is asked of a dialect lines up.
-/

set_option autoImplicit false

namespace RecordMapper

open SqlText

namespace Expr

/-- The numbers hold no quotes and no placeholder marks, as numerals do not. -/
def HasPlainNumbers (e : Expr) : Prop := e.HasNumbers fun s => IsPlain s.toList

theorem HasNumbers.hasPlainNumbers {e : Expr} (h : e.HasNumbers Lexeme.IsSignedNumeral) :
    e.HasPlainNumbers :=
  h.mono fun _ => Lexeme.IsSignedNumeral.isPlain

def IsTidy (written : Result Sql) : Prop := ∀ sql, written = .ok sql → sql.Tidy

structure Rendering.Tidy (r : Rendering) : Prop where
  plain : IsTidy r.plain
  negated : IsTidy r.negated

theorem isTidy_ok {sql : Sql} (h : sql.Tidy) : IsTidy (.ok sql) := by
  intro written hwritten
  obtain rfl := Except.ok.inj hwritten
  exact h

theorem Rendering.Tidy.ofPlain {written : Result Sql} (h : IsTidy written) :
    (Rendering.ofPlain written).Tidy := by
  refine ⟨h, ?_⟩
  intro sql hsql
  obtain ⟨inner, hinner, hsql⟩ := Result.bind_eq_ok_iff.mp hsql
  obtain rfl := Except.ok.inj hsql
  exact (Sql.Detached.enclosed (.literal rfl) (h inner hinner) (.literal rfl)).tidy

section Parts
variable {left right : Result Sql} (hleft : IsTidy left) (hright : IsTidy right)
include hleft hright

theorem tidy_sides {l r : Sql} (hl : left = .ok l) (hr : right = .ok r)
    {before between after : String} (hbefore : Word before) (hbetween : Word between) (hafter : Word after) :
    Sql.Tidy (Sql.text before ++ l ++ Sql.text between ++ r ++ Sql.text after) := by
  have hrest := Sql.Detached.enclosed hbetween (hright r hr) hafter
  have hall := Sql.Detached.text_append hbefore ((hleft l hl).append hrest.tidy hrest.opens)
  simpa only [List.append_assoc] using hall.tidy

theorem isTidy_renderBinary (op : Operator) (rightIsNull : Bool) :
    IsTidy (renderBinary left op rightIsNull right) := by
  have hsign : Word (" " ++ op.sign ++ " ") := by
    refine Word.append (Word.append (.literal rfl) ?_) (.literal rfl)
    cases op <;> exact .literal rfl
  intro sql h
  obtain ⟨l, hl, h⟩ := Result.bind_eq_ok_iff.mp h
  split at h
  · obtain rfl := Except.ok.inj h
    exact (Sql.Detached.enclosed (.literal rfl) (hleft l hl) (.literal rfl)).tidy
  · obtain rfl := Except.ok.inj h
    exact (Sql.Detached.enclosed (.literal rfl) (hleft l hl) (.literal rfl)).tidy
  · obtain ⟨r, hr, h⟩ := Result.bind_eq_ok_iff.mp h
    obtain rfl := Except.ok.inj h
    exact tidy_sides hleft hright hl hr (.literal rfl) hsign (.literal rfl)

theorem isTidy_renderLogical {joiner : String} (hjoiner : Word joiner) :
    IsTidy (renderLogical left joiner right) := by
  intro sql h
  obtain ⟨l, hl, h⟩ := Result.bind_eq_ok_iff.mp h
  obtain ⟨r, hr, h⟩ := Result.bind_eq_ok_iff.mp h
  obtain rfl := Except.ok.inj h
  exact tidy_sides hleft hright hl hr (.literal rfl) hjoiner (.literal rfl)

end Parts

section Columns
variable {columns : String → Option String} (hcolumns : ∀ name c, columns name = some c → Word c)
include hcolumns

theorem isTidy_renderNamed (name : String) (value : Option Value) :
    IsTidy (renderNamed columns name value) := by
  unfold renderNamed
  cases hcolumn : columns name with
  | some column => exact isTidy_ok (Sql.tidy_text (hcolumns name column hcolumn).balanced)
  | none =>
    cases value with
    | some v => exact isTidy_ok (Sql.Detached.param v).tidy
    | none => exact nofun

theorem tidy_rendering {e : Expr} (h : e.HasPlainNumbers) : (e.rendering columns).Tidy := by
  induction e with
  | number s => exact .ofPlain (isTidy_ok (Sql.tidy_text h.isBalanced))
  | text s => exact .ofPlain (isTidy_ok (Sql.tidy_text (Word.quoted rfl s).balanced))
  | null => exact .ofPlain (isTidy_ok (Sql.tidy_text (.literal rfl)))
  | named name value => exact .ofPlain (isTidy_renderNamed hcolumns name value)
  | binary l op r ihl ihr =>
    have hl := ihl h.1
    have hr := ihr h.2
    rw [rendering]
    simp only
    split
    · exact hl
    · split
      · exact ⟨isTidy_renderBinary hl.plain hr.plain _ _, isTidy_renderBinary hl.plain hr.plain _ _⟩
      · exact .ofPlain (isTidy_renderBinary hl.plain hr.plain _ _)
  | not e ih => exact ⟨(ih h).negated, (ih h).plain⟩
  | and l r ihl ihr =>
    exact .ofPlain (isTidy_renderLogical (ihl h.1).plain (ihr h.2).plain (.literal rfl))
  | or l r ihl ihr =>
    exact .ofPlain (isTidy_renderLogical (ihl h.1).plain (ihr h.2).plain (.literal rfl))
  | caseWhen c t f ihc iht ihf =>
    have hc := ihc h.1
    have ht := iht h.2.1
    have hf := ihf h.2.2
    rw [rendering]
    split
    · split
      · exact ⟨hc.negated, hc.plain⟩
      · exact .ofPlain (isTidy_renderLogical hc.negated hf.plain (.literal rfl))
    · split
      · exact hc
      · refine .ofPlain ?_
        intro sql hsql
        obtain ⟨condition, hcondition, hsql⟩ := Result.bind_eq_ok_iff.mp hsql
        obtain ⟨ifTrue, hifTrue, hsql⟩ := Result.bind_eq_ok_iff.mp hsql
        obtain ⟨ifFalse, hifFalse, hsql⟩ := Result.bind_eq_ok_iff.mp hsql
        obtain rfl := Except.ok.inj hsql
        have hrest : Sql.Detached
            (Sql.text " THEN " ++ ifTrue ++ Sql.text " ELSE " ++ ifFalse ++ Sql.text " END") := by
          have hend : Sql.Detached (Sql.text " ELSE " ++ ifFalse ++ Sql.text " END") :=
            .enclosed (.literal rfl) (hf.plain _ hifFalse) (.literal rfl)
          have hthen := Sql.Detached.text_append (s := " THEN ") (.literal rfl)
            ((ht.plain _ hifTrue).append hend.tidy hend.opens)
          simpa only [List.append_assoc] using hthen
        have hall := Sql.Detached.text_append (s := "CASE WHEN ") (.literal rfl)
          ((hc.plain _ hcondition).append hrest.tidy hrest.opens)
        simpa only [List.append_assoc] using hall.tidy
  | arrayGet a i iha ihi =>
    refine .ofPlain ?_
    intro sql hsql
    obtain ⟨array, harray, hsql⟩ := Result.bind_eq_ok_iff.mp hsql
    obtain ⟨index, hindex, hsql⟩ := Result.bind_eq_ok_iff.mp hsql
    obtain rfl := Except.ok.inj hsql
    have hindexed : Sql.Detached (Sql.text "[" ++ index ++ Sql.text "]") :=
      .enclosed (.literal rfl) ((ihi h.2).plain _ hindex) (.literal rfl)
    rw [List.append_assoc, List.append_assoc, ← List.append_assoc (Sql.text "[")]
    exact ((iha h.1).plain _ harray).append hindexed.tidy hindexed.opens

end Columns

end Expr

/-- An expression with plain numbers, or no expression at all. -/
def Predicate.IsPlain (p : Predicate) : Prop := ∀ e, p = .expr e → e.HasPlainNumbers

namespace Scope
variable {s : Scope} (hd : s.dialect.Orderly)
include hd

theorem word_column (p : ColumnPosition) : Word (s.column p) := by
  have hname := hd.quote (s.columnName p)
  unfold Scope.column
  simp only
  split
  · have htable := (Word.append (a := "T") (.literal rfl) (.number (p.table + 1))).append (b := ".")
      (.literal rfl)
    exact htable.append hname.balanced
  · exact hname

theorem word_named {name column : String} (h : s.named? name = some column) : Word column := by
  obtain ⟨p, -, rfl⟩ := Option.map_eq_some_iff.mp h
  exact word_column hd p

theorem detached_columns (ps : List ColumnPosition) : (s.columns ps).Detached := by
  refine .commas ?_
  intro item hitem
  obtain ⟨p, -, rfl⟩ := List.mem_map.mp hitem
  exact .text (word_column hd p)

theorem detached_operand (o : Operand) : (s.operand o).Detached := by
  cases o with
  | column p => exact .text (word_column hd p)
  | value v => exact .param v

theorem tidy_predicate {p : Predicate} (hp : p.IsPlain) {sql : Sql}
    (h : s.predicate p = .ok sql) : sql.Tidy := by
  cases p with
  | compare left op right =>
    have hsign : Word (" " ++ op.sign ++ " ") := by
      refine Word.append (Word.append (.literal rfl) ?_) (.literal rfl)
      cases op <;> exact .literal rfl
    have hopen := (Sql.Detached.text (s := "(") (.literal rfl)).append
      (detached_operand hd left)
    obtain rfl := Except.ok.inj h
    refine ((hopen.append ?_).append (.text (.literal rfl))).tidy
    split
    · exact .text (.literal rfl)
    · exact .text (.literal rfl)
    · exact .append (.text hsign) (detached_operand hd right)
  | like operand pattern =>
    obtain rfl := Except.ok.inj h
    have hopen := (Sql.Detached.text (s := "(") (.literal rfl)).append
      (detached_operand hd operand)
    have hlike := (hopen.append (.text (s := " LIKE ") (.literal rfl))).append
      (.param (.text pattern))
    exact (hlike.append (.text (.literal rfl))).tidy
  | between operand low high =>
    obtain rfl := Except.ok.inj h
    have hopen := (Sql.Detached.text (s := "(") (.literal rfl)).append
      (detached_operand hd operand)
    have hlow := (hopen.append (.text (s := " BETWEEN ") (.literal rfl))).append
      (detached_operand hd low)
    have hhigh := (hlow.append (.text (s := " AND ") (.literal rfl))).append
      (detached_operand hd high)
    exact (hhigh.append (.text (.literal rfl))).tidy
  | isNull operand negated =>
    obtain rfl := Except.ok.inj h
    have hopen := (Sql.Detached.text (s := "(") (.literal rfl)).append
      (detached_operand hd operand)
    refine (hopen.append (.text ?_)).tidy
    split
    · exact .literal rfl
    · exact .literal rfl
  | expr e => exact (Expr.tidy_rendering (fun _ _ => word_named hd) (hp e rfl)).plain sql h

theorem detached_filters {conditions : List (Connective × Predicate)}
    (hplain : ∀ f ∈ conditions, f.2.IsPlain) {sql : Sql} (h : s.filters conditions = .ok sql) :
    sql.Detached := by
  cases conditions with
  | nil =>
    obtain rfl := Except.ok.inj h
    exact .nil
  | cons first rest =>
    obtain ⟨begun, hbegun, h⟩ := Result.bind_eq_ok_iff.mp h
    obtain ⟨others, hothers, h⟩ := Result.bind_eq_ok_iff.mp h
    obtain rfl := Except.ok.inj h
    refine .append (.text_append (.literal rfl) ?_) (.flatten ?_)
    · exact tidy_predicate hd (hplain first List.mem_cons_self) hbegun
    · intro item hitem
      obtain ⟨⟨c, p⟩, hmem, hp⟩ := Result.exists_of_mapM_eq_ok hothers hitem
      obtain ⟨written, hwritten, hp⟩ := Result.bind_eq_ok_iff.mp hp
      obtain rfl := Except.ok.inj hp
      have hpredicate := hplain (c, p) (List.mem_cons_of_mem first hmem)
      refine .text_append ?_ (tidy_predicate hd hpredicate hwritten)
      cases c <;> exact .literal rfl

end Scope

namespace Query

theorem detached_clause {keyword : String} (hkeyword : Word keyword) {items : List Sql}
    (h : ∀ item ∈ items, item.Detached) : (clause keyword items).Detached := by
  unfold clause
  split
  · exact .nil
  · exact .append (.text hkeyword) (.commas h)

section Writing
variable {q : Query} {d : Dialect} {s : Statement} (hd : d.Orderly)
include hd

theorem detached_projection (projection : Projection) :
    (q.projection (q.scope d true) projection).Detached := by
  cases projection with
  | record => exact Scope.detached_columns (s := q.scope d true) hd _
  | count => exact .text (.literal rfl)
  | columns ps => exact Scope.detached_columns (s := q.scope d true) hd ps

theorem detached_joinClause {j : Join} (hplain : ∀ p ∈ j.on, p.IsPlain) {i : Nat} {sql : Sql}
    (h : joinClause (q.scope d true) j i = .ok sql) : sql.Detached := by
  obtain ⟨conditions, hconditions, h⟩ := Result.bind_eq_ok_iff.mp h
  obtain rfl := Except.ok.inj h
  refine .append (.text ?_) ?_
  · have hkeyword : Word j.kind.keyword := by cases j.kind <;> exact .literal rfl
    have htable := hkeyword.append (hd.tableName j.source.table).balanced
    exact (htable.append (.literal rfl)).append (.number (i + 1))
  · split
    · exact .nil
    · refine .text_append (.literal rfl) (.separated (.literal rfl) ?_)
      intro item hitem
      obtain ⟨p, hp, hwritten⟩ := Result.exists_of_mapM_eq_ok hconditions hitem
      exact Scope.tidy_predicate (s := q.scope d true) hd (hplain p hp) hwritten

variable (hplain : q.Conditions Predicate.IsPlain)
include hplain

theorem tidy_writeSelect {projection : Projection} (h : q.writeSelect projection d = .ok s) :
    s.body.Tidy := by
  obtain ⟨joins, hjoins, h⟩ := Result.bind_eq_ok_iff.mp h
  obtain ⟨filters, hfilters, h⟩ := Result.bind_eq_ok_iff.mp h
  obtain ⟨page, hpage, h⟩ := Result.exists_of_ite_bind_eq_ok h
  obtain rfl := Except.ok.inj h
  have hselect : Word ("SELECT " ++ (if q.isDistinct && !decide (projection = .count) then
      "DISTINCT " else "")) :=
    Word.append (.literal rfl) (.ite (.literal rfl) (.literal rfl))
  have hfrom : Word (" FROM " ++ d.tableName q.source.table ++ " T1") :=
    Word.append (Word.append (.literal rfl) (hd.tableName _).balanced) (.literal rfl)
  have hjoined : Sql.Detached joins.flatten := by
    refine .flatten ?_
    intro item hitem
    obtain ⟨⟨j, i⟩, hj, hwritten⟩ := Result.exists_of_mapM_eq_ok hjoins hitem
    exact detached_joinClause hd (hplain.joins j (List.fst_mem_of_mem_zipIdx hj)) hwritten
  have hgrouped : Sql.Detached (clause " GROUP BY " (q.grouping.map fun p =>
      Sql.text ((q.scope d true).column p))) := by
    refine detached_clause (.literal rfl) ?_
    intro item hitem
    obtain ⟨p, -, rfl⟩ := List.mem_map.mp hitem
    exact .text (Scope.word_column (s := q.scope d true) hd p)
  have hordered : Sql.Detached (clause " ORDER BY "
      (q.ordering.map (orderItem (q.scope d true)))) := by
    refine detached_clause (.literal rfl) ?_
    intro item hitem
    obtain ⟨⟨p, descending⟩, -, rfl⟩ := List.mem_map.mp hitem
    refine .append (.text (Scope.word_column (s := q.scope d true) hd p)) ?_
    cases descending with
    | false => exact .nil
    | true => exact .text (.literal rfl)
  have hpaged : Sql.Detached page := by
    split at hpage
    · obtain rfl := Except.ok.inj hpage
      exact .nil
    · exact hd.page hpage
  have hbegun := ((Sql.Detached.text hselect).append (detached_projection (q := q) hd
    projection)).append
    (.text hfrom)
  have hconditioned := (hbegun.append hjoined).append
    (Scope.detached_filters (s := q.scope d true) hd hplain.filters hfilters)
  exact (((hconditioned.append hgrouped).append hordered).append hpaged).tidy

theorem tidy_writeUpdate (h : q.writeUpdate d = .ok s) : s.body.Tidy := by
  obtain ⟨filters, hfilters, h⟩ := Result.bind_eq_ok_iff.mp h
  obtain rfl := Except.ok.inj h
  refine Sql.Detached.tidy (Sql.Detached.append (Sql.Detached.append (.text ?_) (.commas ?_))
    (Scope.detached_filters (s := q.scope d false) hd hplain.filters hfilters))
  · exact (Word.append (.literal rfl) (hd.tableName _).balanced).append (.literal rfl)
  · intro item hitem
    obtain ⟨⟨p, v⟩, -, rfl⟩ := List.mem_map.mp hitem
    have hcolumn := Scope.word_column (s := q.scope d false) hd p
    exact .append (.text (hcolumn.append (.literal rfl))) (.param v)

theorem tidy_writeDelete (h : q.writeDelete d = .ok s) : s.body.Tidy := by
  obtain ⟨filters, hfilters, h⟩ := Result.bind_eq_ok_iff.mp h
  obtain rfl := Except.ok.inj h
  refine Sql.Detached.tidy (Sql.Detached.append (.text ?_)
    (Scope.detached_filters (s := q.scope d false) hd hplain.filters hfilters))
  exact Word.append (.literal rfl) (hd.tableName _).balanced

theorem tidy_answer {request : Request} (h : q.answer request d = .ok s) : s.body.Tidy := by
  obtain ⟨-, h⟩ := write_of_answer h
  cases request with
  | select => exact tidy_writeSelect hd hplain h
  | first =>
    have hlimited : Conditions Predicate.IsPlain { q with limit := q.limit.or (some 1) } :=
      ⟨hplain.filters, hplain.joins⟩
    exact tidy_writeSelect hd hlimited h
  | count => exact tidy_writeSelect hd hplain h
  | rows columns =>
    obtain ⟨_, -, h⟩ := Result.bind_eq_ok_iff.mp h
    exact tidy_writeSelect hd hplain h
  | update => exact tidy_writeUpdate hd hplain h
  | delete => exact tidy_writeDelete hd hplain h

end Writing

theorem conditions_isPlain_run (source : Alias) {calls : List Call}
    (hcalls : ∀ c e, .filterExpr c e ∈ calls → e.HasPlainNumbers) :
    (run source calls).Conditions Predicate.IsPlain := by
  refine conditions_run (fun p hp e he => absurd he (hp e)) source ?_
  intro c e hmem e' he'
  obtain rfl := Predicate.expr.inj he'
  exact hcalls c e hmem

end Query

/-- The statements that can be made in a dialect: of tables, of rows and of queries. The numbers of
expressions are numerals; names, texts and values are whatever they are. -/
inductive Dialect.Makes (d : Dialect) : Statement → Prop
  | createTable (t : Table) : Makes d (d.createTable t)
  | dropTable (t : Table) : Makes d (d.dropTable t)
  | createIndex {t : Table} {i : Index} {s : Statement} : d.createIndex t i = .ok s → Makes d s
  | insert {t : Table} {values : List Value} {s : Statement} : d.insert t values = .ok s → Makes d s
  | update {t : Table} {values : List Value} {s : Statement} : d.update t values = .ok s → Makes d s
  | delete {t : Table} {values : List Value} {s : Statement} : d.delete t values = .ok s → Makes d s
  | merge {t : Table} {values : List Value} {statements : List Statement} {s : Statement} :
    d.merge t values = .ok statements → s ∈ statements → Makes d s
  | query {source : Alias} {calls : List Call} {request : Request} {s : Statement} :
    (∀ c e, .filterExpr c e ∈ calls → e.HasPlainNumbers) →
    (Query.run source calls).answer request d = .ok s → Makes d s

/-- Every statement of a product shows a placeholder for each of its parameters, in order, and
writing the parameters in replaces the placeholders and nothing else. -/
theorem Dialect.linesUp_of_makes {p : Product} {version : ProductVersion} {s : Statement}
    (h : (ofProduct p version).Makes s) : s.LinesUp := by
  have hd := orderly_ofProduct p version
  refine Sql.Tidy.linesUp ?_
  cases h with
  | createTable t => exact hd.createTable t
  | dropTable t => exact hd.dropTable t
  | createIndex h => exact hd.createIndex h
  | insert h => exact hd.insert h
  | update h => exact hd.update h
  | delete h => exact hd.delete h
  | merge h hs => exact hd.merge h s hs
  | query hcalls h => exact Query.tidy_answer hd (Query.conditions_isPlain_run _ hcalls) h

namespace Query

/-- A table whose names look like quotes and placeholders. -/
def oddAlias : Alias where
  id := 0
  model := { id := 0, typeName := "Odd", initial := {}, description := .done }
  mapping :=
    ⟨{ name := "o\"dd?", columns := [{ name := "n$1", fieldName := "note", sqlType := .varchar }] },
      []⟩
  record := {}
  registry := {}

def oddCalls : List Call :=
  [.filterExpr .and (.binary (.named "note" none) .eq (.text "it's $1?")),
    .filter .or (.value (.text "a'b")) (.compare .ne (.text "$2"))]

def oddStatement : Statement where
  style := .numbered
  body := Sql.text "SELECT " ++ Sql.text "T1.\"n$1\"" ++ Sql.text " FROM \"o\"\"dd?\" T1" ++
    Sql.text " WHERE " ++ Sql.text "(" ++ Sql.text "T1.\"n$1\"" ++ Sql.text " = " ++
    Sql.text "'it''s $1?'" ++ Sql.text ")" ++ Sql.text " OR " ++ Sql.text "(" ++
    Sql.param (.text "a'b") ++ Sql.text " <> " ++ Sql.param (.text "$2") ++ Sql.text ")"

theorem linesUp_oddStatement :
    (Dialect.ofProduct .postgreSql .zero).Makes oddStatement ∧
      oddStatement.sql =
        "SELECT T1.\"n$1\" FROM \"o\"\"dd?\" T1 WHERE (T1.\"n$1\" = 'it''s $1?') OR ($1 <> $2)" ∧
      SqlText.placeholders oddStatement.sql = ["$1", "$2"] ∧
      SqlText.filled ["'a''b'", "'$2'"] oddStatement.sql =
        "SELECT T1.\"n$1\" FROM \"o\"\"dd?\" T1 " ++
          "WHERE (T1.\"n$1\" = 'it''s $1?') OR ('a''b' <> '$2')" := by
  have hcalls : ∀ c e, .filterExpr c e ∈ oddCalls → e.HasPlainNumbers := by
    intro c e he
    obtain ⟨rfl, rfl⟩ : c = .and ∧ e = .binary (.named "note" none) .eq (.text "it's $1?") := by
      simpa [oddCalls] using he
    exact ⟨trivial, trivial⟩
  have hanswer : (run oddAlias oddCalls).answer .select (.ofProduct .postgreSql .zero) =
      .ok oddStatement :=
    Result.eq_ok_of_toOption_eq_some (by decide +kernel)
  have hmakes : (Dialect.ofProduct .postgreSql .zero).Makes oddStatement := .query hcalls hanswer
  obtain ⟨hplaceholders, hinlined⟩ := Dialect.linesUp_of_makes hmakes
  refine ⟨hmakes, by decide +kernel, ?_, ?_⟩
  · rw [hplaceholders]
    decide +kernel
  · have hliterals : oddStatement.params.map Value.literal = ["'a''b'", "'$2'"] := by
      decide
    rw [← hliterals, ← hinlined]
    decide +kernel

end Query

end RecordMapper
