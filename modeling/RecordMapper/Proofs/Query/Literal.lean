import RecordMapper.Proofs.Query.Noninterference
import RecordMapper.Proofs.Statement.Literal

/-!
# String literals in the statements of queries

A text constant is written as a literal wherever it stands, and what is written behind it never
begins with a quote, whatever the other constants are. So it is read back, and the rest of the
statement left alone, by every product to which a backslash is a character like any other. The one
product that takes it for an escape reads another text, or no end of the literal at all, as soon as
the text holds a backslash.
-/

set_option autoImplicit false

namespace RecordMapper

open Sql

namespace Expr

def IsClosed (written : Result Sql) : Prop := ∀ sql, written = .ok sql → sql.Closed

structure Rendering.Closed (r : Rendering) : Prop where
  plain : IsClosed r.plain
  negated : IsClosed r.negated

theorem isClosed_ok {sql : Sql} (h : sql.Closed) : IsClosed (.ok sql) := by
  intro written hwritten
  obtain rfl := Except.ok.inj hwritten
  exact h

theorem Rendering.Closed.ofPlain {written : Result Sql} (h : IsClosed written) :
    (Rendering.ofPlain written).Closed := by
  refine ⟨h, ?_⟩
  intro sql hsql
  obtain ⟨inner, hinner, hsql⟩ := Result.bind_eq_ok_iff.mp hsql
  obtain rfl := Except.ok.inj hsql
  exact (guarded_enclosed (h inner hinner) (by decide) (by decide)).closed

section Parts
variable {left right : Result Sql} (hleft : IsClosed left) (hright : IsClosed right)
include hleft hright

theorem isClosed_renderBinary (op : Operator) (rightIsNull : Bool) :
    IsClosed (renderBinary left op rightIsNull right) := by
  have hsign : setsOff (" " ++ op.sign ++ " ") = true := by cases op <;> decide
  intro sql h
  obtain ⟨l, hl, h⟩ := Result.bind_eq_ok_iff.mp h
  split at h
  · obtain rfl := Except.ok.inj h
    exact (guarded_enclosed (hleft l hl) (by decide) (by decide)).closed
  · obtain rfl := Except.ok.inj h
    exact (guarded_enclosed (hleft l hl) (by decide) (by decide)).closed
  · obtain ⟨r, hr, h⟩ := Result.bind_eq_ok_iff.mp h
    obtain rfl := Except.ok.inj h
    exact (guarded_sides (hleft l hl) (hright r hr) (by decide) hsign (by decide)).closed

theorem isClosed_renderLogical {joiner : String} (hjoiner : setsOff joiner = true) :
    IsClosed (renderLogical left joiner right) := by
  intro sql h
  obtain ⟨l, hl, h⟩ := Result.bind_eq_ok_iff.mp h
  obtain ⟨r, hr, h⟩ := Result.bind_eq_ok_iff.mp h
  obtain rfl := Except.ok.inj h
  exact (guarded_sides (hleft l hl) (hright r hr) (by decide) hjoiner (by decide)).closed

end Parts

theorem isClosed_renderNamed (columns : String → Option String) (name : String)
    (value : Option Value) : IsClosed (renderNamed columns name value) := by
  unfold renderNamed
  split
  · exact isClosed_ok (closed_text _)
  · exact isClosed_ok (guarded_param _).closed
  · exact nofun

theorem closed_rendering (columns : String → Option String) (e : Expr) :
    (e.rendering columns).Closed := by
  induction e with
  | number s => exact .ofPlain (isClosed_ok (closed_text s))
  | text s => exact .ofPlain (isClosed_ok (closed_text _))
  | null => exact .ofPlain (isClosed_ok (closed_text _))
  | named name value => exact .ofPlain (isClosed_renderNamed columns name value)
  | binary l op r hl hr =>
    have hbinary (op : Operator) (rightIsNull : Bool) :=
      isClosed_renderBinary hl.plain hr.plain op rightIsNull
    rw [rendering]
    simp only
    split
    · exact hl
    · split
      · exact ⟨hbinary _ _, hbinary _ _⟩
      · exact .ofPlain (hbinary _ _)
  | not e h => exact ⟨h.negated, h.plain⟩
  | and l r hl hr => exact .ofPlain (isClosed_renderLogical hl.plain hr.plain (by decide))
  | or l r hl hr => exact .ofPlain (isClosed_renderLogical hl.plain hr.plain (by decide))
  | caseWhen c t f hc ht hf =>
    rw [rendering]
    split
    · split
      · exact ⟨hc.negated, hc.plain⟩
      · exact .ofPlain (isClosed_renderLogical hc.negated hf.plain (by decide))
    · split
      · exact hc
      · apply Rendering.Closed.ofPlain
        intro sql hsql
        obtain ⟨condition, hcondition, hsql⟩ := Result.bind_eq_ok_iff.mp hsql
        obtain ⟨ifTrue, hifTrue, hsql⟩ := Result.bind_eq_ok_iff.mp hsql
        obtain ⟨ifFalse, hifFalse, hsql⟩ := Result.bind_eq_ok_iff.mp hsql
        obtain rfl := Except.ok.inj hsql
        have hfront : Guarded (Sql.text "CASE WHEN " ++ condition ++ Sql.text " THEN " ++ ifTrue ++
            Sql.text " ELSE ") :=
          guarded_sides (hc.plain _ hcondition) (ht.plain _ hifTrue) (by decide) (by decide)
            (by decide)
        have hback : Guarded (ifFalse ++ Sql.text " END") :=
          (hf.plain _ hifFalse).append_text (by decide)
        rw [List.append_assoc]
        exact (hfront.append hback).closed
  | arrayGet a i ha hi =>
    apply Rendering.Closed.ofPlain
    intro sql hsql
    obtain ⟨array, harray, hsql⟩ := Result.bind_eq_ok_iff.mp hsql
    obtain ⟨index, hindex, hsql⟩ := Result.bind_eq_ok_iff.mp hsql
    obtain rfl := Except.ok.inj hsql
    have hfront : Guarded (array ++ Sql.text "[") := (ha.plain _ harray).append_text (by decide)
    have hback : Guarded (index ++ Sql.text "]") := (hi.plain _ hindex).append_text (by decide)
    rw [List.append_assoc]
    exact (hfront.append hback).closed

end Expr

section Dialect
variable {d : Dialect} (hd : d.identifierMark ≠ '\'')
include hd

@[simp] theorem Dialect.setsOff_quote (name : String) : setsOff (d.quote name) = true := by
  simp [setsOff, quote, Text.quoted, hd]

theorem Scope.setsOff_column {s : Scope} (hs : s.dialect = d) (p : ColumnPosition) :
    setsOff (s.column p) = true := by
  unfold Scope.column
  simp only
  split
  · rw [String.append_assoc, String.append_assoc]
    exact setsOff_append (by decide) _
  · rw [hs]
    exact Dialect.setsOff_quote hd _

theorem Scope.guarded_operand {s : Scope} (hs : s.dialect = d) (o : Operand) :
    Guarded (s.operand o) := by
  cases o with
  | column p => exact guarded_text (head?_ne_of_setsOff (setsOff_column hd hs p))
  | value v => exact guarded_param v

/-- A condition is closed whatever the expressions in it hold. -/
theorem Scope.closed_predicate {s : Scope} (hs : s.dialect = d) {p : Predicate} {sql : Sql}
    (h : s.predicate p = .ok sql) : Closed sql := by
  have hopen : Guarded (Sql.text "(") := guarded_text (by decide)
  have hclose : Guarded (Sql.text ")") := guarded_text (by decide)
  cases p with
  | compare left op right =>
    have hsign : setsOff (" " ++ op.sign ++ " ") = true := by cases op <;> decide
    have hbegun := hopen.append (guarded_operand hd hs left)
    obtain rfl := Except.ok.inj h
    apply Guarded.closed
    apply Guarded.append _ hclose
    apply hbegun.append
    split
    · exact guarded_text (by decide)
    · exact guarded_text (by decide)
    · exact (guarded_text (head?_ne_of_setsOff hsign)).append (guarded_operand hd hs right)
  | like operand pattern =>
    have hlike : Guarded (Sql.text " LIKE ") := guarded_text (by decide)
    have hbegun := (hopen.append (guarded_operand hd hs operand)).append hlike
    obtain rfl := Except.ok.inj h
    exact ((hbegun.append (guarded_param _)).append hclose).closed
  | between operand low high =>
    have hbetween : Guarded (Sql.text " BETWEEN ") := guarded_text (by decide)
    have hand : Guarded (Sql.text " AND ") := guarded_text (by decide)
    have hbegun := (hopen.append (guarded_operand hd hs operand)).append hbetween
    have hlow := (hbegun.append (guarded_operand hd hs low)).append hand
    obtain rfl := Except.ok.inj h
    exact ((hlow.append (guarded_operand hd hs high)).append hclose).closed
  | isNull operand negated =>
    obtain rfl := Except.ok.inj h
    apply Guarded.closed
    apply (hopen.append (guarded_operand hd hs operand)).append
    cases negated with
    | false => exact guarded_text (by decide)
    | true => exact guarded_text (by decide)
  | expr e => exact (Expr.closed_rendering s.named? e).plain sql h

theorem Scope.follows_filters {s : Scope} (hs : s.dialect = d)
    {filters : List (Connective × Predicate)} {sql : Sql} (h : s.filters filters = .ok sql) :
    Follows sql := by
  cases filters with
  | nil =>
    obtain rfl := Except.ok.inj h
    exact .nil
  | cons first rest =>
    obtain ⟨begun, hbegun, h⟩ := Result.bind_eq_ok_iff.mp h
    obtain ⟨others, hothers, h⟩ := Result.bind_eq_ok_iff.mp h
    obtain rfl := Except.ok.inj h
    apply Follows.append
    · exact follows_text (by decide) (closed_predicate hd hs hbegun)
    · apply Follows.flatten
      intro item hitem
      obtain ⟨⟨c, p⟩, -, hp⟩ := Result.exists_of_mapM_eq_ok hothers hitem
      obtain ⟨condition, hcondition, hp⟩ := Result.bind_eq_ok_iff.mp hp
      obtain rfl := Except.ok.inj hp
      apply follows_text _ (closed_predicate hd hs hcondition)
      cases c <;> decide

end Dialect

theorem Dialect.identifierMark_ofProduct_ne (p : Product) (version : ProductVersion) :
    (ofProduct p version).identifierMark ≠ '\'' := by
  cases p with
  | mySql =>
    change Char.ofNat 96 ≠ '\''
    decide
  | _ =>
    change '"' ≠ '\''
    decide

theorem Dialect.follows_page {d : Dialect} {limit offset : Option Nat} {sql : Sql}
    (h : d.page limit offset = .ok sql) : Follows sql := by
  have hclause (keyword : String) (hkeyword : setsOff keyword = true) (s : String) :
      Follows (Sql.text (keyword ++ s)) :=
    (closed_text _).follows (setsOff_append hkeyword s)
  have hlimit (n : Nat) := hclause " LIMIT " (by decide) (Numeral.ofNat n)
  have hoffset (n : Nat) := hclause " OFFSET " (by decide) (Numeral.ofNat n)
  unfold page at h
  simp only at h
  split at h
  · obtain rfl := Except.ok.inj h
    exact .nil
  · split at h
    · obtain rfl := Except.ok.inj h
      apply Follows.append
      · cases limit with
        | some n => exact hlimit n
        | none => exact .nil
      · cases offset with
        | some n => exact hoffset n
        | none => exact .nil
    · split at h
      · obtain rfl := Except.ok.inj h
        apply (hlimit _).append
        cases offset with
        | some n => exact hoffset n
        | none => exact .nil
      · obtain rfl := Except.ok.inj h
        apply (hclause " LIMIT " (by decide) _).append
        cases offset with
        | some n => exact hoffset n
        | none => exact .nil
    · obtain rfl := Except.ok.inj h
      apply Follows.append
      · rw [String.append_assoc]
        exact hclause " OFFSET " (by decide) _
      · cases limit with
        | some n =>
          change Follows (Sql.text (" FETCH NEXT " ++ Numeral.ofNat n ++ " ROWS ONLY"))
          rw [String.append_assoc]
          exact hclause " FETCH NEXT " (by decide) _
        | none => exact .nil
    · cases h

namespace Query

theorem follows_clause {keyword : String} (hkeyword : setsOff keyword = true) {items : List Sql}
    (h : ∀ item ∈ items, Guarded item) : Follows (clause keyword items) := by
  unfold clause
  split
  · exact .nil
  · exact follows_text hkeyword (guarded_commas h).closed

section Writing
variable {q : Query} {d : Dialect} {s : Statement} (hd : d.identifierMark ≠ '\'')
include hd

theorem guarded_columns {sc : Scope} (hs : sc.dialect = d) (ps : List ColumnPosition) :
    Guarded (sc.columns ps) := by
  apply guarded_commas
  intro item hitem
  obtain ⟨p, -, rfl⟩ := List.mem_map.mp hitem
  exact guarded_text (head?_ne_of_setsOff (Scope.setsOff_column hd hs p))

theorem follows_joinClause {j : Join} {i : Nat} {sql : Sql}
    (h : joinClause (q.scope d true) j i = .ok sql) : Follows sql := by
  obtain ⟨conditions, hconditions, h⟩ := Result.bind_eq_ok_iff.mp h
  obtain rfl := Except.ok.inj h
  have hkeyword : setsOff j.kind.keyword = true := by cases j.kind <;> decide
  apply Follows.append
  · rw [String.append_assoc, String.append_assoc]
    exact (closed_text _).follows (setsOff_append hkeyword _)
  · split
    · exact .nil
    · apply follows_text (by decide)
      apply closed_separated (by decide)
      intro item hitem
      obtain ⟨p, -, hp⟩ := Result.exists_of_mapM_eq_ok hconditions hitem
      exact Scope.closed_predicate (s := q.scope d true) hd rfl hp

theorem closed_writeSelect {projection : Projection} (h : q.writeSelect projection d = .ok s) :
    Closed s.body := by
  obtain ⟨joins, hjoins, h⟩ := Result.bind_eq_ok_iff.mp h
  obtain ⟨filters, hfilters, h⟩ := Result.bind_eq_ok_iff.mp h
  obtain ⟨page, hpage, h⟩ := Result.exists_of_ite_bind_eq_ok h
  obtain rfl := Except.ok.inj h
  have hprojection : Guarded (q.projection (q.scope d true) projection) := by
    cases projection with
    | record => exact guarded_columns hd rfl _
    | count => exact guarded_text (by decide)
    | columns ps => exact guarded_columns hd rfl ps
  have hselect : Guarded (Sql.text ("SELECT " ++
      (if q.isDistinct && !decide (projection = .count) then "DISTINCT " else ""))) :=
    guarded_text (head?_ne_of_setsOff (setsOff_append (by decide) _))
  have hfrom : Guarded (Sql.text (" FROM " ++ d.tableName q.source.table ++ " T1")) := by
    rw [String.append_assoc]
    exact guarded_text (head?_ne_of_setsOff (setsOff_append (by decide) _))
  have hjoined : Follows joins.flatten := by
    apply Follows.flatten
    intro item hitem
    obtain ⟨⟨j, i⟩, -, hwritten⟩ := Result.exists_of_mapM_eq_ok hjoins hitem
    exact follows_joinClause hd hwritten
  have hgrouped : Follows (clause " GROUP BY " (q.grouping.map fun p =>
      Sql.text ((q.scope d true).column p))) := by
    apply follows_clause (by decide)
    intro item hitem
    obtain ⟨p, -, rfl⟩ := List.mem_map.mp hitem
    exact guarded_text (head?_ne_of_setsOff (Scope.setsOff_column hd rfl p))
  have hordered : Follows (clause " ORDER BY " (q.ordering.map (orderItem (q.scope d true)))) := by
    apply follows_clause (by decide)
    intro item hitem
    obtain ⟨⟨p, descending⟩, -, rfl⟩ := List.mem_map.mp hitem
    apply Guarded.append
    · exact guarded_text (head?_ne_of_setsOff (Scope.setsOff_column hd rfl p))
    · cases descending with
      | false => exact trivial
      | true => exact guarded_text (by decide)
  have hpaged : Follows page := by
    split at hpage
    · obtain rfl := Except.ok.inj hpage
      exact .nil
    · exact Dialect.follows_page hpage
  have hfront := (hselect.append hprojection).append hfrom
  have hconditioned := Scope.follows_filters (s := q.scope d true) hd rfl hfilters
  exact hpaged _ (hordered _ (hgrouped _ (hconditioned _ (hjoined _ hfront.closed))))

theorem closed_writeUpdate (h : q.writeUpdate d = .ok s) : Closed s.body := by
  obtain ⟨filters, hfilters, h⟩ := Result.bind_eq_ok_iff.mp h
  obtain rfl := Except.ok.inj h
  have hupdate : Guarded (Sql.text ("UPDATE " ++ d.tableName q.source.table ++ " SET ")) := by
    rw [String.append_assoc]
    exact guarded_text (head?_ne_of_setsOff (setsOff_append (by decide) _))
  apply Scope.follows_filters (s := q.scope d false) hd rfl hfilters
  apply Guarded.closed
  apply hupdate.append
  apply guarded_commas
  intro item hitem
  obtain ⟨⟨p, v⟩, -, rfl⟩ := List.mem_map.mp hitem
  have hcolumn := setsOff_append (Scope.setsOff_column (s := q.scope d false) hd rfl p) " = "
  exact (guarded_text (head?_ne_of_setsOff hcolumn)).append (guarded_param v)

theorem closed_writeDelete (h : q.writeDelete d = .ok s) : Closed s.body := by
  obtain ⟨filters, hfilters, h⟩ := Result.bind_eq_ok_iff.mp h
  obtain rfl := Except.ok.inj h
  exact Scope.follows_filters (s := q.scope d false) hd rfl hfilters _ (closed_text _)

theorem closed_answer {request : Request} (h : q.answer request d = .ok s) : Closed s.body := by
  obtain ⟨-, h⟩ := write_of_answer h
  cases request with
  | select => exact closed_writeSelect hd h
  | first => exact closed_writeSelect hd h
  | count => exact closed_writeSelect hd h
  | rows columns =>
    obtain ⟨_, -, h⟩ := Result.bind_eq_ok_iff.mp h
    exact closed_writeSelect hd h
  | update => exact closed_writeUpdate hd h
  | delete => exact closed_writeDelete hd h

end Writing

/-- A text constant is written as a literal. Wherever a literal stands in a statement, it is read
back as the text it was written for, with nothing behind it touched, exactly if the product takes no
backslash for an escape or the text holds none. -/
theorem literal_reads_back_iff {q : Query} {p : Product} {version : ProductVersion}
    {request : Request} {s : Statement} (h : q.answer request (.ofProduct p version) = .ok s)
    {before after : Sql} {t : String}
    (hplace : s.body = before ++ .text (Text.literal t) :: after) :
    let behind := after.written s.style before.params.length
    (∀ columns, (Expr.text t).render columns = .ok (Sql.text (Text.literal t))) ∧
      s.sql = before.written s.style 0 ++ Text.literal t ++ behind ∧
      (Text.literal? p.escapesWithBackslash (Text.literal t ++ behind) = some (t, behind) ↔
        (p.escapesWithBackslash = true → '\\' ∉ t.toList)) := by
  intro behind
  have hmark : (Dialect.ofProduct p version).identifierMark ≠ '\'' :=
    Dialect.identifierMark_ofProduct_ne p version
  have hquote : (Text.literal t).toList.head? = some '\'' := by simp [Text.literal, Text.quoted]
  have hbehind : behind.toList.head? ≠ some '\'' :=
    (closed_answer hmark h).head?_written hplace hquote s.style before.params.length
  refine ⟨fun columns => rfl, ?_, Text.literal?_literal_iff hbehind⟩
  rw [Statement.sql, hplace, Sql.written_append, Sql.written, Nat.zero_add, String.append_assoc]

def bodyFilter (t : String) : Query :=
  run noteAlias [.filterExpr .and (.binary (.named "body" none) .eq (.text t))]

def bodyFront (table column : String) : Sql :=
  [.text ("DELETE FROM " ++ table), .text " WHERE ", .text "(", .text column, .text " = "]

def bodyStatement (table column t : String) : Statement where
  body := bodyFront table column ++ .text (Text.literal t) :: [.text ")"]

/-- A quote and a backslash, where a backslash is a character like any other. -/
theorem literal_reads_back_quote :
    (bodyFilter "it's \\").answer .delete (.ofProduct .sqlite .zero) =
        .ok (bodyStatement "\"notes\"" "\"body\"" "it's \\") ∧
      (bodyStatement "\"notes\"" "\"body\"" "it's \\").body =
        bodyFront "\"notes\"" "\"body\"" ++ .text (Text.literal "it's \\") :: [.text ")"] ∧
      (bodyStatement "\"notes\"" "\"body\"" "it's \\").sql =
        "DELETE FROM \"notes\" WHERE (\"body\" = 'it''s \\')" ∧
      Text.literal? Product.sqlite.escapesWithBackslash "'it''s \\')" = some ("it's \\", ")") := by
  have hanswer : (bodyFilter "it's \\").answer .delete (.ofProduct .sqlite .zero) =
      .ok (bodyStatement "\"notes\"" "\"body\"" "it's \\") :=
    Result.eq_ok_of_toOption_eq_some (by decide)
  have hplace : (bodyStatement "\"notes\"" "\"body\"" "it's \\").body =
      bodyFront "\"notes\"" "\"body\"" ++ .text (Text.literal "it's \\") :: [.text ")"] := rfl
  obtain ⟨-, hsql, hread⟩ := literal_reads_back_iff hanswer hplace
  refine ⟨hanswer, hplace, ?_, ?_⟩
  · rw [hsql]
    decide
  · exact hread.mpr nofun

/-- Where a backslash escapes, the literal of a single backslash does not end with the quote behind
it, and behind an escaped quote a text can end its literal by itself: what is left of it is then
read as SQL. -/
theorem literal_of_backslash_runs_on :
    (bodyFilter "\\").answer .delete (.ofProduct .mySql .zero) =
        .ok (bodyStatement "`notes`" "`body`" "\\") ∧
      (bodyStatement "`notes`" "`body`" "\\").sql = "DELETE FROM `notes` WHERE (`body` = '\\')" ∧
      Text.literal? Product.mySql.escapesWithBackslash "'\\')" = none ∧
      (bodyStatement "`notes`" "`body`" "\\' OR 1 = 1) -- ").sql =
        "DELETE FROM `notes` WHERE (`body` = '\\'' OR 1 = 1) -- ')" ∧
      Text.literal? Product.mySql.escapesWithBackslash "'\\'' OR 1 = 1) -- ')" =
        some ("'", " OR 1 = 1) -- ')") := by
  refine ⟨?_, ?_, ?_, ?_, ?_⟩
  · exact Result.eq_ok_of_toOption_eq_some (by decide)
  · decide
  · decide
  · decide
  · decide

end Query

end RecordMapper
