import RecordMapper.Proofs.Dialect.Paging
import RecordMapper.Proofs.Query.Noninterference

/-!
# Which rows a statement covers

Beside its conditions a query has settings that decide which of the matching rows it covers: they
are grouped, made distinct and cut down to a page. A statement that reads rows has all of them in
its text, or it is not made; a count has the grouping only. A statement that updates or deletes rows
has none of them, and is made all the same.
-/

set_option autoImplicit false

namespace RecordMapper

/-- Items behind a keyword, nothing for none. -/
def Text.clause (keyword : String) (items : List String) : String :=
  if items.isEmpty then "" else keyword ++ ", ".intercalate items

namespace Sql
variable {style : PlaceholderStyle}

theorem written_eq_of_params {sql : Sql} (h : sql.params = []) (bound : Nat) :
    sql.written style bound = sql.written style 0 := by
  induction sql with
  | nil => rfl
  | cons fragment rest ih =>
    cases fragment with
    | text s => rw [written, written, ih h]
    | param v => cases h

theorem params_separated {separator : String} {items : List Sql}
    (h : ∀ item ∈ items, item.params = []) : (separated separator items).params = [] := by
  induction items using List.twoStepInduction with
  | nil => rfl
  | singleton item => exact h item List.mem_cons_self
  | cons_cons item next others _ ih =>
    have hrest := ih next fun x hx => h x (List.mem_cons_of_mem item hx)
    rw [separated, params_append, params_append, h item List.mem_cons_self, hrest]
    rfl

theorem written_commas {items : List Sql} (h : ∀ item ∈ items, item.params = []) :
    (commas items).written style 0 = ", ".intercalate (items.map (written style 0)) := by
  unfold commas
  induction items using List.twoStepInduction with
  | nil => rfl
  | singleton item => rw [List.map_singleton, String.intercalate_singleton, separated]
  | cons_cons item next others _ ih =>
    have hrest := ih next fun x hx => h x (List.mem_cons_of_mem item hx)
    rw [separated, written_append, written_append, params_append, h item List.mem_cons_self]
    change item.written style 0 ++ (", " ++ "") ++
      written style 0 (separated ", " (next :: others)) = _
    rw [String.append_empty, hrest, List.map_cons, List.map_cons, List.map_cons,
      String.intercalate_cons_cons]

end Sql

/-- The request for all rows of the same columns. -/
def Request.plain : Request → Request
  | .first => .select
  | request => request

/-- Whether the request is for rows, or for their number. -/
def Request.Reads : Request → Prop
  | .update | .delete => False
  | _ => True

namespace Query
variable {style : PlaceholderStyle}

theorem params_clause {keyword : String} {items : List Sql} (h : ∀ item ∈ items, item.params = []) :
    (clause keyword items).params = [] := by
  unfold clause
  split
  · rfl
  · rw [Sql.params_append, Sql.commas, Sql.params_separated h]
    rfl

theorem written_clause {keyword : String} {items : List Sql} (h : ∀ item ∈ items, item.params = [])
    (bound : Nat) :
    (clause keyword items).written style bound =
      Text.clause keyword (items.map (Sql.written style 0)) := by
  rw [Sql.written_eq_of_params (params_clause h), clause, Text.clause, List.isEmpty_map]
  split
  · rfl
  · rw [Sql.written_append]
    change keyword ++ "" ++ (Sql.commas items).written style 0 = _
    rw [String.append_empty, Sql.written_commas h]

/-- The query without the settings that decide which of the matching rows it covers. -/
def bare (q : Query) : Query :=
  { q with grouping := [], isDistinct := false, limit := none, offset := none }

/-- The query with the settings that a request pays regard to. The first record is asked for as a
page of one row, and a count is one of all matching rows. -/
def regarded (q : Query) : Request → Query
  | .first => { q with limit := q.limit.or (some 1) }
  | .count => { q with isDistinct := false, limit := none, offset := none }
  | _ => q

def distinctText (q : Query) : String := if q.isDistinct then "DISTINCT " else ""

def groupText (q : Query) (d : Dialect) : String :=
  Text.clause " GROUP BY " (q.grouping.map (q.scope d true).column)

def orderText (q : Query) (d : Dialect) : String :=
  Text.clause " ORDER BY " <| q.ordering.map fun item =>
    (q.scope d true).column item.1 ++ if item.2 then " DESC" else ""

/-- The statement is the plain one with all settings of the query, each in its place; the clause at
its end is read by the product as the page that is asked for. -/
structure Covers (q : Query) (p : Product) (d : Dialect) (plain s : Statement) : Prop where
  params : s.params = plain.params
  paged : d.supportsPaging = true ∨ q.limit = none ∧ q.offset = none
  text : ∃ body clause,
    plain.sql = "SELECT " ++ body ++ q.orderText d ∧
      s.sql = "SELECT " ++ q.distinctText ++ body ++ q.groupText d ++ q.orderText d ++ clause ∧
      ∃ page, Page.ofClause? p clause = some page ∧
        ∀ {α : Type} (all : List α), all.length < 18446744073709551616 →
          page.rows all = (Page.asked q.limit q.offset).rows all

variable {q : Query} {d : Dialect}

theorem params_of_mem_grouping {item : Sql}
    (h : item ∈ q.grouping.map fun p => Sql.text ((q.scope d true).column p)) :
    item.params = [] := by
  obtain ⟨_, -, rfl⟩ := List.mem_map.mp h
  rfl

theorem params_of_mem_ordering {item : Sql}
    (h : item ∈ q.ordering.map (orderItem (q.scope d true))) : item.params = [] := by
  obtain ⟨column, -, rfl⟩ := List.mem_map.mp h
  unfold orderItem
  split <;> rfl

theorem written_orderItem (sc : Scope) (item : ColumnPosition × Bool) :
    (orderItem sc item).written style 0 = sc.column item.1 ++ if item.2 then " DESC" else "" := by
  unfold orderItem
  split
  · simp [Sql.written, Sql.text]
  · simp [Sql.written, Sql.text]

theorem written_grouping (bound : Nat) :
    (clause " GROUP BY " (q.grouping.map fun p =>
      Sql.text ((q.scope d true).column p))).written style bound = q.groupText d := by
  rw [written_clause fun _ => params_of_mem_grouping, List.map_map, groupText]
  congr 1
  exact List.map_congr_left fun p _ => String.append_empty

theorem written_ordering (bound : Nat) :
    (clause " ORDER BY " (q.ordering.map (orderItem (q.scope d true)))).written style bound =
      q.orderText d := by
  rw [written_clause fun _ => params_of_mem_ordering, List.map_map, orderText]
  congr 1
  exact List.map_congr_left fun item _ => written_orderItem _ item

/-- A `SELECT` around the part that says which columns of which rows are read. -/
def around (q : Query) (d : Dialect) (distinct : String) (body page : Sql) : Sql :=
  Sql.text ("SELECT " ++ distinct) ++ body ++
    clause " GROUP BY " (q.grouping.map fun p => Sql.text ((q.scope d true).column p)) ++
    clause " ORDER BY " (q.ordering.map (orderItem (q.scope d true))) ++ page

theorem params_around {distinct : String} {body page : Sql} (hpage : page.params = []) :
    (q.around d distinct body page).params = body.params := by
  have hgrouping : (clause " GROUP BY " (q.grouping.map fun p =>
      Sql.text ((q.scope d true).column p))).params = [] :=
    params_clause fun _ => params_of_mem_grouping
  have hordering : (clause " ORDER BY " (q.ordering.map (orderItem (q.scope d true)))).params =
      [] := params_clause fun _ => params_of_mem_ordering
  rw [around, Sql.params_append, Sql.params_append, Sql.params_append, Sql.params_append, hgrouping,
    hordering, hpage, List.append_nil, List.append_nil, List.append_nil]
  rfl

theorem written_around {distinct : String} {body page : Sql} (hpage : page.params = []) :
    (q.around d distinct body page).written style 0 =
      "SELECT " ++ distinct ++ body.written style 0 ++ q.groupText d ++ q.orderText d ++
        page.written style 0 := by
  rw [around, Sql.written_append, Sql.written_append, Sql.written_append, Sql.written_append,
    written_grouping, written_ordering, Sql.written_eq_of_params hpage]
  change "SELECT " ++ distinct ++ "" ++ _ ++ _ ++ _ ++ _ = _
  rw [String.append_empty]
  rfl

/-- The columns that are read and the rows that match. -/
def matched (q : Query) (d : Dialect) (projection : Projection) : Result Sql := do
  let joins ← q.joins.zipIdx.mapM fun (j, i) => joinClause (q.scope d true) j (i + 1)
  let filters ← (q.scope d true).filters q.filters
  return q.projection (q.scope d true) projection ++
    Sql.text (" FROM " ++ d.tableName q.source.table ++ " T1") ++ joins.flatten ++ filters

theorem writeSelect_eq (q : Query) (d : Dialect) (projection : Projection) :
    q.writeSelect projection d =
      q.matched d projection >>= fun body =>
      (if projection = .count then .ok [] else d.page q.limit q.offset : Result Sql) >>= fun page =>
      .ok (d.statement (q.around d
        (if q.isDistinct && !decide (projection = .count) then "DISTINCT " else "") body page)) := by
  simp only [writeSelect, matched, bind_assoc, pure_bind]
  refine bind_congr fun joins => bind_congr fun filters => ?_
  split
  · simp only [around, List.append_assoc]
    rfl
  · simp only [around, List.append_assoc]
    rfl

/-- Without settings nothing but the order is written around what matches. -/
theorem writeSelect_bare {projection : Projection} {body : Sql}
    (h : q.matched d projection = .ok body) :
    q.bare.writeSelect projection d = .ok (d.statement (q.bare.around d "" body [])) := by
  have hbare : q.bare.matched d projection = .ok body := h
  rw [writeSelect_eq, hbare]
  change ((if projection = .count then .ok [] else d.page none none : Result Sql) >>= _) = _
  split <;> rfl

theorem covers_around {p : Product} {body page : Sql} (h : Page.Denotes p q.limit q.offset page)
    (hpaged : d.supportsPaging = true ∨ q.limit = none ∧ q.offset = none) :
    q.Covers p d (d.statement (q.bare.around d "" body []))
      (d.statement (q.around d q.distinctText body page)) where
  params := (params_around h.params).trans (params_around rfl).symm
  paged := hpaged
  text := by
    obtain ⟨read, hread, hrows⟩ := h.reads
    refine ⟨body.written (.ofProduct d.product) 0, page.written (.ofProduct d.product) 0,
      ?_, written_around h.params, read, hread _ _, hrows⟩
    refine (written_around rfl).trans ?_
    change "SELECT " ++ "" ++ _ ++ "" ++ q.orderText d ++ "" = _
    simp only [String.append_empty]
    rfl

variable {p : Product} {version : ProductVersion} {s : Statement}

theorem covers_writeSelect {projection : Projection} (hprojection : projection ≠ .count)
    (h : q.writeSelect projection (.ofProduct p version) = .ok s) :
    ∃ plain, q.bare.writeSelect projection (.ofProduct p version) = .ok plain ∧
      q.Covers p (.ofProduct p version) plain s := by
  rw [writeSelect_eq, decide_eq_false hprojection, if_neg hprojection] at h
  obtain ⟨body, hbody, h⟩ := Result.bind_eq_ok_iff.mp h
  obtain ⟨page, hpage, h⟩ := Result.bind_eq_ok_iff.mp h
  obtain rfl := Except.ok.inj h
  refine ⟨_, writeSelect_bare hbody, ?_⟩
  rw [Bool.not_false, Bool.and_true]
  exact covers_around (Page.denotes_page hpage) (Dialect.supportsPaging_of_page hpage)

/-- A count is written without regard to the other settings. -/
theorem writeSelect_count (q : Query) (d : Dialect) :
    q.writeSelect .count d = (q.regarded .count).writeSelect .count d := by
  rw [writeSelect_eq, writeSelect_eq, decide_eq_true rfl, Bool.not_true, Bool.and_false,
    Bool.and_false]
  rfl

theorem covers_writeSelect_count (h : q.writeSelect .count (.ofProduct p version) = .ok s) :
    ∃ plain, q.bare.writeSelect .count (.ofProduct p version) = .ok plain ∧
      (q.regarded .count).Covers p (.ofProduct p version) plain s := by
  rw [writeSelect_count, writeSelect_eq, decide_eq_true rfl, Bool.not_true, Bool.and_false] at h
  obtain ⟨body, hbody, h⟩ := Result.bind_eq_ok_iff.mp h
  obtain rfl := Except.ok.inj h
  exact ⟨_, writeSelect_bare hbody, covers_around (Page.denotes_nil p) (.inr ⟨rfl, rfl⟩)⟩

theorem answer_of_writeSelect {projection : Projection} (hq : q.error = none)
    (h : q.writeSelect projection d = .ok s) :
    (q.selectDraft projection >>= fun draft => draft d) = .ok s := by
  rw [selectDraft, checked, hq]
  exact h

theorem covers_answer {request : Request} (hreads : request.Reads)
    (h : q.answer request (.ofProduct p version) = .ok s) :
    ∃ plain, q.bare.answer request.plain (.ofProduct p version) = .ok plain ∧
      (q.regarded request).Covers p (.ofProduct p version) plain s := by
  obtain ⟨hq, h⟩ := write_of_answer h
  cases request with
  | select =>
    have hselect : q.writeSelect .record (.ofProduct p version) = .ok s := h
    obtain ⟨plain, hplain, hcovers⟩ := covers_writeSelect (by decide) hselect
    exact ⟨plain, answer_of_writeSelect (q := q.bare) hq hplain, hcovers⟩
  | first =>
    have hselect : (q.regarded .first).writeSelect .record (.ofProduct p version) = .ok s := h
    obtain ⟨plain, hplain, hcovers⟩ := covers_writeSelect (by decide) hselect
    exact ⟨plain, answer_of_writeSelect (q := q.bare) hq hplain, hcovers⟩
  | count =>
    obtain ⟨plain, hplain, hcovers⟩ := covers_writeSelect_count h
    exact ⟨plain, answer_of_writeSelect (q := q.bare) hq hplain, hcovers⟩
  | rows columns =>
    obtain ⟨ps, hps, h⟩ := Result.bind_eq_ok_iff.mp h
    have hcolumns : q.writeSelect (.columns ps) (.ofProduct p version) = .ok s := h
    obtain ⟨plain, hplain, hcovers⟩ := covers_writeSelect (by simp) hcolumns
    have hbare : columns.mapM q.bare.column = .ok ps := hps
    refine ⟨plain, ?_, hcovers⟩
    change (q.bare.rowsDraft columns >>= fun draft => draft _) = _
    rw [rowsDraft, hbare]
    exact answer_of_writeSelect (q := q.bare) hq hplain
  | update | delete => exact hreads.elim

theorem answer_count (q : Query) (d : Dialect) :
    q.answer .count d = (q.regarded .count).answer .count d := by
  change (q.checked >>= fun _ => .ok (q.writeSelect .count)) >>= _ =
    (q.checked >>= fun _ => .ok ((q.regarded .count).writeSelect .count)) >>= _
  cases q.checked with
  | error e => rfl
  | ok _ => exact writeSelect_count q d

theorem singleTableDraft_of_joins (h : q.joins ≠ []) (statement : String) (draft : StatementDraft) :
    (q.singleTableDraft statement draft >>= fun draft => draft d) =
      .error (q.error.getD (d.lacks (.joins statement))) := by
  have hjoins : q.joins.isEmpty = false := by
    rw [Bool.eq_false_iff, ne_eq, List.isEmpty_iff]
    exact h
  rw [singleTableDraft, checked, hjoins]
  cases q.error <;> rfl

theorem joins_eq_nil_of_singleTableDraft {name : String} {draft : StatementDraft}
    {statement : Statement}
    (h : (q.singleTableDraft name draft >>= fun draft => draft d) = .ok statement) :
    q.joins = [] := by
  by_contra hne
  rw [singleTableDraft_of_joins hne] at h
  cases h

/-- An `UPDATE` or a `DELETE` is that of the query without these settings and without an order. -/
theorem answer_of_not_reads (q : Query) (d : Dialect) {request : Request} (h : ¬ request.Reads) :
    q.answer request d = { q.bare with ordering := [] }.answer request d := by
  cases request with
  | update | delete => rfl
  | select | first | count | rows => exact absurd trivial h

/-- What is answered to a request for rows has every setting of the query in its text. Where there
are no pages nothing is answered that asks for one. A count is one of all matching rows, in groups
if the query has them. A statement on one table fails if there are others, but it pays no regard to
the settings: whatever they are, all rows that match are updated or deleted. -/
theorem answer_covers (q : Query) (p : Product) (version : ProductVersion) :
    (∀ request s, request.Reads → q.answer request (.ofProduct p version) = .ok s →
      ∃ plain, q.bare.answer request.plain (.ofProduct p version) = .ok plain ∧
        (q.regarded request).Covers p (.ofProduct p version) plain s) ∧
      (∀ request, request.Reads → (Dialect.ofProduct p version).supportsPaging = false →
        (q.regarded request).limit ≠ none ∨ (q.regarded request).offset ≠ none →
        ∃ e, q.answer request (.ofProduct p version) = .error e) ∧
      q.answer .count (.ofProduct p version) =
        (q.regarded .count).answer .count (.ofProduct p version) ∧
      (q.joins ≠ [] →
        q.answer .update (.ofProduct p version) =
            .error (q.error.getD ((Dialect.ofProduct p version).lacks (.joins "UPDATE"))) ∧
          q.answer .delete (.ofProduct p version) =
            .error (q.error.getD ((Dialect.ofProduct p version).lacks (.joins "DELETE")))) ∧
      ∀ request, ¬ request.Reads → q.answer request (.ofProduct p version) =
        { q.bare with ordering := [] }.answer request (.ofProduct p version) := by
  refine ⟨fun request s hreads h => covers_answer hreads h, fun request hreads hpaging hasked => ?_,
    answer_count q _, fun hjoins => ?_, fun request => answer_of_not_reads q _⟩
  · cases hanswer : q.answer request (.ofProduct p version) with
    | error e => exact ⟨e, rfl⟩
    | ok s =>
      obtain ⟨plain, -, hcovers⟩ := covers_answer hreads hanswer
      rcases hcovers.paged with hpaged | ⟨hlimit, hoffset⟩
      · cases hpaging.symm.trans hpaged
      · rcases hasked with hasked | hasked
        · exact absurd hlimit hasked
        · exact absurd hoffset hasked
  · exact ⟨singleTableDraft_of_joins hjoins "UPDATE" _, singleTableDraft_of_joins hjoins "DELETE" _⟩

/-- SQLite skips rows behind a limit that limits nothing. -/
theorem answer_covers_note_page :
    ∃ s plain,
      (run noteAlias [.distinct, .startAt 5]).answer .select (.ofProduct .sqlite .zero) = .ok s ∧
        s.sql = "SELECT DISTINCT T1.\"id\", T1.\"body\" FROM \"notes\" T1 LIMIT -1 OFFSET 5" ∧
        (run noteAlias []).answer .select (.ofProduct .sqlite .zero) = .ok plain ∧
        (run noteAlias [.distinct, .startAt 5]).Covers .sqlite (.ofProduct .sqlite .zero) plain
          s := by
  have hsql : ((run noteAlias [.distinct, .startAt 5]).answer .select
      (.ofProduct .sqlite .zero)).map Statement.sql =
        .ok "SELECT DISTINCT T1.\"id\", T1.\"body\" FROM \"notes\" T1 LIMIT -1 OFFSET 5" :=
    Result.eq_ok_of_toOption_eq_some (by decide +kernel)
  obtain ⟨s, hs, hsql⟩ := Result.map_eq_ok_iff.mp hsql
  obtain ⟨plain, hplain, hcovers⟩ :=
    (answer_covers (run noteAlias [.distinct, .startAt 5]) .sqlite .zero).1 .select s trivial hs
  exact ⟨s, plain, hs, hsql, hplain, hcovers⟩

/-- A count pays no regard to `distinct`, and a `DELETE` is not cut down to a page. -/
theorem answer_not_covers_note :
    ((run noteAlias [.distinct]).answer .count (.ofProduct .sqlite .zero)).map Statement.sql =
        .ok "SELECT COUNT(*) FROM \"notes\" T1" ∧
      (run noteAlias [.distinct]).answer .count (.ofProduct .sqlite .zero) =
        (run noteAlias []).answer .count (.ofProduct .sqlite .zero) ∧
      ((run noteAlias [.limitTo 1]).answer .delete (.ofProduct .sqlite .zero)).map Statement.sql =
        .ok "DELETE FROM \"notes\"" := by
  refine ⟨Result.eq_ok_of_toOption_eq_some (by decide), ?_,
    Result.eq_ok_of_toOption_eq_some (by decide)⟩
  rw [answer_count, answer_count (run noteAlias [])]
  rfl

end Query

end RecordMapper
