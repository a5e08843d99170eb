import RecordMapper.Proofs.Query.Failure
import RecordMapper.Proofs.Query.Piece
import RecordMapper.Proofs.Query.Settings
import RecordMapper.Proofs.Query.Tidy
import RecordMapper.Proofs.Query.Trailing

/-!
# The sections of a statement

A statement is a row of sections, and its conditions are sections of their own. However it is asked
for, what comes first is followed by the joins of the query and its filters.
-/

set_option autoImplicit false

namespace RecordMapper

open Lexeme

namespace Query

/-- The columns that the query itself holds, and those that are found for it when a statement is
written. -/
structure Mentions (P : ColumnPosition → Prop) (q : Query) : Prop where
  conditions : q.Conditions (Predicate.Mentions P)
  grouping : ∀ p ∈ q.grouping, P p
  ordering : ∀ item ∈ q.ordering, P item.1
  assignments : ∀ a ∈ q.assignments, P a.1
  /-- The columns of a record. -/
  record : ∀ i < q.source.table.columns.length, P ⟨0, i⟩
  /-- The columns that an argument denotes. -/
  argument : ∀ arg p, q.column arg = .ok p → P p
  /-- The columns that an expression names. -/
  named : ∀ name p, Scope.findFrom name 0 q.tables = some p → P p

theorem mentions_all (q : Query) : q.Mentions fun _ => True := by
  have hall (o : Operand) : o.Mentions fun _ => True := by cases o <;> trivial
  have hpredicate (condition : Predicate) : condition.Mentions fun _ => True := by
    cases condition with
    | compare left op right => exact ⟨hall left, hall right⟩
    | like operand pattern => exact hall operand
    | between operand low high => exact ⟨hall operand, hall low, hall high⟩
    | isNull operand negated => exact hall operand
    | expr e => trivial
  exact ⟨⟨fun f _ => hpredicate f.2, fun _ _ condition _ => hpredicate condition⟩,
    fun _ _ => trivial, fun _ _ => trivial, fun _ _ => trivial, fun _ _ => trivial,
    fun _ _ _ => trivial, fun _ _ _ => trivial⟩

/-- The scope in which a statement is written. -/
def scopeOf (q : Query) (d : Dialect) : Request → Scope
  | .update | .delete => q.scope d false
  | _ => q.scope d true

/-- Sections that come before the conditions. -/
def frontWords : List String := ["SELECT", "FROM", "UPDATE", "SET", "DELETE"]

/-- The statement holds the conditions of the query behind what comes first: the joins, then the
filters. All of them could be written. -/
structure IsLaidOut (q : Query) (s : Scope) (Q : String → Prop) (front : List StatementSection)
    (statement : Statement) : Prop where
  writes : q.Conditions (s.Writes Q)
  begins : ∀ sec ∈ front, sec.1 ∈ frontWords
  consists : ∃ back, (∀ sec ∈ back, sec.1 ∈ backWords) ∧ statement.Consists Q
    (front ++ (q.joins.zipIdx.flatMap fun item => s.joinSections item.1 (item.2 + 1)) ++
      s.filterSections q.filters ++ back)

/-- The items that are selected. -/
def projected (q : Query) (s : Scope) : Projection → List (List Lexeme)
  | .record =>
    ((List.range q.source.table.columns.length).map fun i => ⟨0, i⟩).map fun p => (s.name p).lexemes
  | .count => [[.word "COUNT", .sign "(", .sign "*", .sign ")"]]
  | .columns ps => ps.map fun p => (s.name p).lexemes

/-- An item by which rows are ordered. -/
def ordered (s : Scope) (item : ColumnPosition × Bool) : List Lexeme :=
  (s.name item.1).lexemes ++ if item.2 then [.word "DESC"] else []

/-- An assignment. -/
def assigned (s : Scope) (a : ColumnPosition × Value) : List Lexeme :=
  (s.name a.1).lexemes ++ [.sign "=", .param a.2]

/-- The first sections of a `SELECT`. -/
def selectFront (q : Query) (d : Dialect) (selected : List Lexeme) : List StatementSection :=
  [("SELECT", selected),
    ("FROM", (d.tablePath q.source.table).lexemes ++ [.word (tableAlias 0)])]

section Statements
variable {q : Query} {d : Dialect} {Q : String → Prop} {P : ColumnPosition → Prop}
  {statement : Statement}

theorem mayWrite {s : Scope} (hs : s.tables = q.tables) (hd : s.dialect.Delimits)
    (hnumbers : q.Conditions Predicate.HasNumerals) (hq : q.Mentions P)
    (hP : ∀ p, P p → s.Admits Q p) : q.Conditions (s.MayWrite Q) := by
  have hnamed : ∀ n p, Scope.findFrom n 0 s.tables = some p → s.Admits Q p := by
    intro n p hfound
    rw [hs] at hfound
    exact hP p (hq.named n p hfound)
  refine ⟨fun f hf sql hsql => ?_, fun j hj p hp sql hsql => ?_⟩
  · exact Scope.isCondition_predicate hd (hnumbers.filters f hf)
      ((hq.conditions.filters f hf).mono hP) (fun _ _ => hnamed) hsql
  · exact Scope.isCondition_predicate hd (hnumbers.joins j hj p hp)
      ((hq.conditions.joins j hj p hp).mono hP) (fun _ _ => hnamed) hsql

theorem isPiece_projection (hd : d.Delimits) (hq : q.Mentions P)
    (hP : ∀ p, P p → (q.scope d true).Admits Q p) {projection : Projection}
    (hprojection : ∀ ps, projection = .columns ps → ∀ p ∈ ps, P p) :
    IsPiece Q (q.projection (q.scope d true) projection).atoms
      ([.sign ","].intercalate (q.projected (q.scope d true) projection)) := by
  cases projection with
  | record =>
    refine Scope.isPiece_columns hd ?_
    intro p hp
    obtain ⟨i, hi, rfl⟩ := List.mem_map.mp hp
    exact hP _ (hq.record i (List.mem_range.mp hi))
  | count =>
    have hcount : Delimited (Sql.chars "COUNT(*)")
        [.word "COUNT", .sign "(", .sign "*", .sign ")"] := fun _ => rfl
    rw [projected, List.intercalate_singleton]
    exact ⟨hcount.spells, .of_forall (by decide)⟩
  | columns ps => exact Scope.isPiece_columns hd fun p hp => hP p (hprojection ps rfl p hp)

theorem isPiece_orderItem (hd : d.Delimits) {item : ColumnPosition × Bool}
    (h : (q.scope d true).Admits Q item.1) :
    IsPiece Q (orderItem (q.scope d true) item).atoms (ordered (q.scope d true) item) := by
  have hcolumn := Scope.isPiece_column (s := q.scope d true) hd h
  have hblank : Delimited (Sql.chars " ") [] := fun _ => rfl
  have hword : Spells (Sql.chars "DESC") [.word "DESC"] := .word rfl
  have hdesc : IsPiece Q (Sql.chars (" " ++ "DESC")) [.word "DESC"] := by
    rw [Sql.chars_append]
    exact ⟨hblank.append_spells hword, .of_forall (by decide)⟩
  unfold orderItem ordered
  rw [Sql.atoms_append]
  cases item.2 with
  | false => simpa [Sql.atoms] using hcolumn
  | true =>
    refine hcolumn.append hdesc ?_
    intro first hfirst
    obtain rfl := Option.some.inj hfirst
    rfl

theorem exists_delimited_select (isDistinct : Bool) :
    ∃ ls, (ls = [] ∨ ls = [.word "DISTINCT"]) ∧
      Delimited (Sql.chars ("SELECT " ++ if isDistinct then "DISTINCT " else ""))
        (.word "SELECT" :: ls) ∧ IsBody Q ls := by
  cases isDistinct with
  | false => exact ⟨[], .inl rfl, fun _ => rfl, (isAdditive_isBody Q).nil⟩
  | true => exact ⟨[.word "DISTINCT"], .inr rfl, fun _ => rfl, .word (by decide)⟩

theorem lays_from (hd : d.Delimits) (t : Table) :
    Lays Q (Sql.chars (" FROM " ++ d.tableName t ++ " T1"))
      [("FROM", (d.tablePath t).lexemes ++ [.word (tableAlias 0)])] := by
  have hkeyword : Delimited (Sql.chars " FROM ") [.word "FROM"] := fun _ => rfl
  have hone : " T1" = " T" ++ Numeral.ofNat (0 + 1) := by decide +kernel
  have htable := Dialect.isPiece_table (Q := Q) hd t 0
  rw [hone, String.append_assoc, Sql.chars_append, ← String.append_assoc]
  exact .word (by decide) hkeyword rfl rfl htable

theorem lays_joins {s : Scope} (hd : s.dialect.Delimits)
    (hmay : ∀ j ∈ q.joins, ∀ p ∈ j.on, s.MayWrite Q p) {joins : List Sql}
    (h : q.joins.zipIdx.mapM (fun item => joinClause s item.1 (item.2 + 1)) = .ok joins) :
    Lays Q (Sql.atoms joins.flatten)
        (q.joins.zipIdx.flatMap fun item => s.joinSections item.1 (item.2 + 1)) ∧
      ∀ j ∈ q.joins, ∀ p ∈ j.on, s.Writes Q p := by
  have hjoin {item : Join × Nat} (hitem : item ∈ q.joins.zipIdx) {sql : Sql}
      (hsql : joinClause s item.1 (item.2 + 1) = .ok sql) :=
    Scope.lays_join hd (hmay item.1 (List.fst_mem_of_mem_zipIdx hitem)) hsql
  refine ⟨.flatten h fun item hitem sql hsql => (hjoin hitem hsql).1, fun j hj => ?_⟩
  rw [← List.zipIdx_map_fst 0 q.joins] at hj
  obtain ⟨item, hitem, rfl⟩ := List.mem_map.mp hj
  obtain ⟨sql, hsql⟩ := Result.exists_of_mem_of_mapM_eq_ok h hitem
  exact (hjoin hitem hsql).2

theorem lays_grouping (hd : d.Delimits)
    (hadmits : ∀ p ∈ q.grouping, (q.scope d true).Admits Q p) :
    Lays Q (clause " GROUP BY " (q.grouping.map fun p =>
        Sql.text ((q.scope d true).column p))).atoms
      (clauseSections "GROUP" (q.grouping.map fun p => ((q.scope d true).name p).lexemes)) :=
  lays_clause (by decide) (fun _ => rfl) rfl fun p hp =>
    Scope.isPiece_column (s := q.scope d true) hd (hadmits p hp)

theorem lays_ordering (hd : d.Delimits)
    (hadmits : ∀ item ∈ q.ordering, (q.scope d true).Admits Q item.1) :
    Lays Q (clause " ORDER BY " (q.ordering.map (orderItem (q.scope d true)))).atoms
      (clauseSections "ORDER" (q.ordering.map (ordered (q.scope d true)))) :=
  lays_clause (by decide) (fun _ => rfl) rfl fun item hitem =>
    isPiece_orderItem hd (hadmits item hitem)

/-- The sections of a `SELECT`. Only those of a page are not told one by one. -/
theorem consists_writeSelect (hd : d.Delimits)
    (hcondition : q.Conditions ((q.scope d true).MayWrite Q)) (hq : q.Mentions P)
    (hP : ∀ p, P p → (q.scope d true).Admits Q p) {projection : Projection}
    (hprojection : ∀ ps, projection = .columns ps → ∀ p ∈ ps, P p) (htidy : statement.body.Tidy)
    (h : q.writeSelect projection d = .ok statement) :
    q.Conditions ((q.scope d true).Writes Q) ∧
      ∃ distinct page, (distinct = [] ∨ distinct = [.word "DISTINCT"]) ∧
        (∀ sec ∈ page, sec.1 ∈ pageWords) ∧
        statement.Consists Q
          (q.selectFront d (distinct ++
              [.sign ","].intercalate (q.projected (q.scope d true) projection)) ++
            (q.joins.zipIdx.flatMap fun item =>
              (q.scope d true).joinSections item.1 (item.2 + 1)) ++
            (q.scope d true).filterSections q.filters ++
            (clauseSections "GROUP" (q.grouping.map fun p => ((q.scope d true).name p).lexemes) ++
              clauseSections "ORDER" (q.ordering.map (ordered (q.scope d true))) ++ page)) := by
  obtain ⟨joins, hjoins, h⟩ := Result.bind_eq_ok_iff.mp h
  obtain ⟨filters, hfilters, h⟩ := Result.bind_eq_ok_iff.mp h
  obtain ⟨page, hpage, h⟩ := Result.exists_of_ite_bind_eq_ok h
  obtain rfl := Except.ok.inj h
  obtain ⟨distinct, hshape, hselect, hdistinct⟩ :=
    exists_delimited_select (Q := Q) (q.isDistinct && !decide (projection = .count))
  have hcolumns := isPiece_projection hd hq hP hprojection
  obtain ⟨hwhere, hfilterWrites⟩ := Scope.lays_filters hcondition.filters hfilters
  obtain ⟨hjoined, hjoinWrites⟩ := lays_joins (s := q.scope d true) hd hcondition.joins hjoins
  have hgrouped := lays_grouping hd fun p hp => hP p (hq.grouping p hp)
  have hordered := lays_ordering hd fun item hitem => hP item.1 (hq.ordering item hitem)
  have hpaged : IsPaging Q (Sql.atoms page) := by
    split at hpage
    · obtain rfl := Except.ok.inj hpage
      exact .nil
    · exact isPaging_page hd hpage
  obtain ⟨paging, hback, hpageWords⟩ := hpaged
  have hfrom := lays_from (Q := Q) hd q.source.table
  have hrest := ((hfrom.append hjoined).append hwhere).append
    ((hgrouped.append hordered).append hback)
  have hword : Text.upper "SELECT" ∈ sectionWords := by decide
  have hselected := hcolumns.body
  generalize [Lexeme.sign ","].intercalate (q.projected (q.scope d true) projection) = selected
    at hcolumns hselected ⊢
  have hsection : IsSection Q ("SELECT", distinct ++ selected) :=
    ⟨hword, (isAdditive_isBody Q).append hdistinct hselected⟩
  refine ⟨⟨hfilterWrites, hjoinWrites⟩, distinct, paging, hshape, hpageWords, ?_⟩
  have hconsists := Statement.consists_of_tidy htidy ?_ hselect hcolumns.spells
    (ofSections_singleton ("SELECT", distinct ++ selected)).symm
    (List.forall_mem_singleton.mpr hsection) hrest
  · simpa only [selectFront, List.append_assoc, List.cons_append, List.nil_append]
      using hconsists
  · simp [Dialect.statement]

theorem isLaidOut_writeSelect (hd : d.Delimits)
    (hcondition : q.Conditions ((q.scope d true).MayWrite Q)) (hq : q.Mentions P)
    (hP : ∀ p, P p → (q.scope d true).Admits Q p) {projection : Projection}
    (hprojection : ∀ ps, projection = .columns ps → ∀ p ∈ ps, P p) (htidy : statement.body.Tidy)
    (h : q.writeSelect projection d = .ok statement) :
    ∃ selected, q.IsLaidOut (q.scope d true) Q (q.selectFront d selected) statement := by
  obtain ⟨hwrites, distinct, page, -, hpage, hconsists⟩ :=
    consists_writeSelect hd hcondition hq hP hprojection htidy h
  refine ⟨_, hwrites, ?_, _, ?_, hconsists⟩
  · simp [selectFront, frontWords]
  · intro sec hsec
    rcases List.mem_append.mp hsec with hsec | hsec
    · rcases List.mem_append.mp hsec with hsec | hsec
      · rw [word_of_mem_clauseSections hsec]
        decide
      · rw [word_of_mem_clauseSections hsec]
        decide
    · have hwords : ∀ w ∈ pageWords, w ∈ backWords := by decide
      exact hwords _ (hpage sec hsec)

theorem isPiece_assignments (hd : d.Delimits) : IsPiece Q (Sql.atoms (Sql.commas
      (q.assignments.map fun (p, v) => Sql.text ((q.scope d false).column p ++ " = ") ++
        Sql.param v)))
    ([.sign ","].intercalate (q.assignments.map (assigned (q.scope d false)))) := by
  refine .commas ?_
  rintro ⟨p, v⟩ -
  have hcolumn : IsPiece Q _ ((q.scope d false).name p).lexemes :=
    Scope.isPiece_column (s := q.scope d false) hd fun h => absurd h Bool.false_ne_true
  have hequals : Delimited (Sql.chars " = ") [.sign "="] := fun _ => rfl
  have hsign : IsBody Q [.sign "="] := .sign (by decide)
  have hvalue : IsPiece Q (Sql.chars " = " ++ [.param v]) ([.sign "="] ++ [.param v]) :=
    ⟨hequals.append_spells (Scanner.Delimited.param v).spells,
      (isAdditive_isBody Q).append hsign (.param v)⟩
  have hassignment := hcolumn.append hvalue fun first hfirst => by
    obtain rfl := Option.some.inj hfirst
    rfl
  have hatoms : Sql.atoms (Sql.text ((q.scope d false).column p ++ " = ") ++ Sql.param v) =
      (Sql.text ((q.scope d false).column p)).atoms ++ (Sql.chars " = " ++ [.param v]) := by
    rw [Sql.atoms_append, Sql.atoms_text, Sql.atoms_text, Sql.chars_append, List.append_assoc]
    rfl
  change IsPiece Q (Sql.atoms (Sql.text _ ++ Sql.param v)) _
  rw [hatoms]
  exact hassignment

theorem isLaidOut_of_consists {s : Scope} {front : List StatementSection} (hjoins : q.joins = [])
    (hwrites : ∀ f ∈ q.filters, s.Writes Q f.2) (hfront : ∀ sec ∈ front, sec.1 ∈ frontWords)
    (h : statement.Consists Q (front ++ s.filterSections q.filters)) :
    q.IsLaidOut s Q front statement := by
  refine ⟨⟨hwrites, ?_⟩, hfront, [], List.forall_mem_nil _, ?_⟩
  · rw [hjoins]
    exact List.forall_mem_nil _
  · rw [hjoins, List.zipIdx_nil, List.flatMap_nil, List.append_nil, List.append_nil]
    exact h

theorem consists_writeUpdate (hd : d.Delimits)
    (hcondition : q.Conditions ((q.scope d false).MayWrite Q)) (htidy : statement.body.Tidy)
    (h : q.writeUpdate d = .ok statement) :
    (∀ f ∈ q.filters, (q.scope d false).Writes Q f.2) ∧
      statement.Consists Q
        ([("UPDATE", (d.tablePath q.source.table).lexemes),
            ("SET", [.sign ","].intercalate (q.assignments.map (assigned (q.scope d false))))] ++
          (q.scope d false).filterSections q.filters) := by
  obtain ⟨filters, hfilters, h⟩ := Result.bind_eq_ok_iff.mp h
  obtain rfl := Except.ok.inj h
  obtain ⟨hwhere, hwrites⟩ := Scope.lays_filters hcondition.filters hfilters
  exact ⟨hwrites, Dialect.consists_update hd hwhere (isPiece_assignments hd) htidy⟩

theorem isLaidOut_writeUpdate (hd : d.Delimits)
    (hcondition : q.Conditions ((q.scope d false).MayWrite Q)) (hjoins : q.joins = [])
    (htidy : statement.body.Tidy) (h : q.writeUpdate d = .ok statement) :
    ∃ front, q.IsLaidOut (q.scope d false) Q front statement := by
  obtain ⟨hwrites, hconsists⟩ := consists_writeUpdate hd hcondition htidy h
  refine ⟨_, isLaidOut_of_consists hjoins hwrites ?_ hconsists⟩
  simp [frontWords]

theorem consists_writeDelete (hd : d.Delimits)
    (hcondition : q.Conditions ((q.scope d false).MayWrite Q)) (htidy : statement.body.Tidy)
    (h : q.writeDelete d = .ok statement) :
    (∀ f ∈ q.filters, (q.scope d false).Writes Q f.2) ∧
      statement.Consists Q
        ([("DELETE", []), ("FROM", (d.tablePath q.source.table).lexemes)] ++
          (q.scope d false).filterSections q.filters) := by
  obtain ⟨filters, hfilters, h⟩ := Result.bind_eq_ok_iff.mp h
  obtain rfl := Except.ok.inj h
  obtain ⟨hwhere, hwrites⟩ := Scope.lays_filters hcondition.filters hfilters
  exact ⟨hwrites, Dialect.consists_delete hd hwhere htidy⟩

theorem isLaidOut_writeDelete (hd : d.Delimits)
    (hcondition : q.Conditions ((q.scope d false).MayWrite Q)) (hjoins : q.joins = [])
    (htidy : statement.body.Tidy) (h : q.writeDelete d = .ok statement) :
    ∃ front, q.IsLaidOut (q.scope d false) Q front statement := by
  obtain ⟨hwrites, hconsists⟩ := consists_writeDelete hd hcondition htidy h
  refine ⟨_, isLaidOut_of_consists hjoins hwrites ?_ hconsists⟩
  simp [frontWords]

theorem tidy_of_hasNumerals (hd : d.Orderly) (hnumbers : q.Conditions Predicate.HasNumerals)
    {request : Request} (h : q.answer request d = .ok statement) : statement.body.Tidy := by
  have hpredicate (p : Predicate) (hp : p.HasNumerals) : p.IsPlain :=
    fun e he => (hp e he).hasPlainNumbers
  have hplain : q.Conditions Predicate.IsPlain :=
    ⟨fun f hf => hpredicate f.2 (hnumbers.filters f hf),
      fun j hj p hp => hpredicate p (hnumbers.joins j hj p hp)⟩
  exact tidy_answer hd hplain h

/-- However a statement is asked for, it holds the conditions of the query. A statement that reads
begins with the table that the query is over. -/
theorem isLaidOut_answer (hd : d.Orderly) (hdelimits : d.Delimits) (hq : q.Mentions P)
    (hnumbers : q.Conditions Predicate.HasNumerals) {request : Request}
    (hP : ∀ p, P p → (q.scopeOf d request).Admits Q p) (h : q.answer request d = .ok statement) :
    ∃ front, q.IsLaidOut (q.scopeOf d request) Q front statement ∧
      (request.Reads → ∃ selected, front = q.selectFront d selected) := by
  have htidy := tidy_of_hasNumerals hd hnumbers h
  have hmay := mayWrite (s := q.scopeOf d request) (by cases request <;> rfl)
    (by cases request <;> exact hdelimits) hnumbers hq hP
  obtain ⟨-, hwritten⟩ := write_of_answer h
  cases request with
  | select =>
    have hselect : q.writeSelect .record d = .ok statement := hwritten
    obtain ⟨selected, hlaid⟩ :=
      isLaidOut_writeSelect hdelimits hmay hq hP (by simp) htidy hselect
    exact ⟨_, hlaid, fun _ => ⟨selected, rfl⟩⟩
  | first =>
    have hselect : writeSelect { q with limit := q.limit.or (some 1) } .record d = .ok statement :=
      hwritten
    have hlimited : Mentions P { q with limit := q.limit.or (some 1) } :=
      ⟨⟨hq.conditions.filters, hq.conditions.joins⟩, hq.grouping, hq.ordering, hq.assignments,
        hq.record, hq.argument, hq.named⟩
    have hmayLimited : Conditions ((q.scope d true).MayWrite Q)
        { q with limit := q.limit.or (some 1) } := ⟨hmay.filters, hmay.joins⟩
    obtain ⟨selected, hlaid⟩ :=
      isLaidOut_writeSelect hdelimits hmayLimited hlimited hP (by simp) htidy hselect
    exact ⟨_, ⟨⟨hlaid.writes.filters, hlaid.writes.joins⟩, hlaid.begins, hlaid.consists⟩,
      fun _ => ⟨selected, rfl⟩⟩
  | count =>
    have hselect : q.writeSelect .count d = .ok statement := hwritten
    obtain ⟨selected, hlaid⟩ :=
      isLaidOut_writeSelect hdelimits hmay hq hP (by simp) htidy hselect
    exact ⟨_, hlaid, fun _ => ⟨selected, rfl⟩⟩
  | rows columns =>
    obtain ⟨ps, hps, hwritten⟩ := Result.bind_eq_ok_iff.mp hwritten
    have hmentioned : ∀ p ∈ ps, P p := by
      intro p hp
      obtain ⟨arg, -, hcolumn⟩ := Result.exists_of_mapM_eq_ok hps hp
      exact hq.argument arg p hcolumn
    have hselect : q.writeSelect (.columns ps) d = .ok statement := hwritten
    obtain ⟨selected, hlaid⟩ :=
      isLaidOut_writeSelect hdelimits hmay hq hP (by simpa using hmentioned) htidy hselect
    exact ⟨_, hlaid, fun _ => ⟨selected, rfl⟩⟩
  | update =>
    obtain ⟨front, hlaid⟩ := isLaidOut_writeUpdate hdelimits hmay
      (joins_eq_nil_of_singleTableDraft h) htidy hwritten
    exact ⟨front, hlaid, fun hreads => hreads.elim⟩
  | delete =>
    obtain ⟨front, hlaid⟩ := isLaidOut_writeDelete hdelimits hmay
      (joins_eq_nil_of_singleTableDraft h) htidy hwritten
    exact ⟨front, hlaid, fun hreads => hreads.elim⟩

end Statements

end Query

end RecordMapper
