import RecordMapper.Proofs.Dialect.Classification
import RecordMapper.Proofs.Dialect.Elements

/-!
# Lists of all statements

A query has a list of what it selects or assigns, and lists of what it is grouped and ordered by if
there is any of it. With that the lists of every statement are known. All of them have items but
those of two kinds of statements: an insert whose values are all left to the database, and a query
for single columns that is given none. Neither is refused, as other lists without items are.
-/

set_option autoImplicit false

namespace RecordMapper

open Lexeme

namespace Lexeme

theorem AreListsOf.append {found more : List (Part × List Lexeme)}
    {lists others : List (Part × List (List Lexeme))} (h : AreListsOf found lists)
    (hmore : AreListsOf more others) : AreListsOf (found ++ more) (lists ++ others) := by
  induction h with
  | nil => exact hmore
  | cons hfirst _ ih => exact .cons hfirst ih

@[simp] theorem sectionLists_append (secs more : List StatementSection) :
    sectionLists (secs ++ more) = sectionLists secs ++ sectionLists more :=
  List.filterMap_append

theorem sectionLists_eq_nil {words : List String} (hwords : ∀ w ∈ words, Part.ofSection? w = none)
    {secs : List StatementSection} (h : ∀ sec ∈ secs, sec.1 ∈ words) : sectionLists secs = [] := by
  refine List.filterMap_eq_nil_iff.mpr fun sec hsec => ?_
  rw [hwords sec.1 (h sec hsec)]
  rfl

end Lexeme

namespace Scope

theorem isColumn_name (s : Scope) (p : ColumnPosition) : IsColumn (s.name p).lexemes := by
  unfold name
  dsimp only
  split
  · exact .qualified _ _ _
  · exact .plain _ _

@[simp] theorem sectionLists_joins (s : Scope) (joins : List (Join × Nat)) :
    sectionLists (joins.flatMap fun item => s.joinSections item.1 (item.2 + 1)) = [] := by
  have hwords : ∀ w ∈ ["INNER", "LEFT", "JOIN", "ON"], Part.ofSection? w = none := by
    decide
  refine sectionLists_eq_nil hwords fun sec hsec => ?_
  obtain ⟨item, -, hsec⟩ := List.mem_flatMap.mp hsec
  exact Scope.word_of_mem_joinSections hsec

@[simp] theorem sectionLists_filters (s : Scope) (filters : List (Connective × Predicate)) :
    sectionLists (s.filterSections filters) = [] := by
  unfold filterSections
  split <;> rfl

end Scope

namespace Query

theorem isItem_of_mem_projected {q : Query} {s : Scope} {projection : Projection} {a : List Lexeme}
    (h : a ∈ q.projected s projection) : IsItem .selection a := by
  have hcolumn (p : ColumnPosition) : IsItem .selection (s.name p).lexemes :=
    .column (by decide) (s.isColumn_name p)
  cases projection with
  | record =>
    obtain ⟨p, -, rfl⟩ := List.mem_map.mp h
    exact hcolumn p
  | count =>
    obtain rfl := List.mem_singleton.mp h
    exact .count
  | columns ps =>
    obtain ⟨p, -, rfl⟩ := List.mem_map.mp h
    exact hcolumn p

theorem isItem_ordered (s : Scope) (item : ColumnPosition × Bool) :
    IsItem .ordering (ordered s item) := by
  have hcolumn := s.isColumn_name item.1
  unfold ordered
  split
  · exact .descending hcolumn
  · rw [List.append_nil]
    exact .column (by decide) hcolumn

/-- The list of a clause, which is not written if it has no items. -/
def clauseLists (part : Part) (items : List (List Lexeme)) : List (Part × List (List Lexeme)) :=
  if items.isEmpty then [] else [(part, items)]

theorem areListsOf_clause {w : String} {part : Part} (hw : Part.ofSection? w = some part)
    {items : List (List Lexeme)} (hitems : ∀ a ∈ items, IsItem part a) :
    AreListsOf (sectionLists (clauseSections w items)) (clauseLists part items) := by
  unfold clauseSections clauseLists
  split
  · exact .nil
  · have hlist : IsListOf part items ([.word "BY"] ++ [.sign ","].intercalate items) :=
      isListOf_intercalate hitems (by decide)
    rw [sectionLists, List.filterMap_cons, hw]
    exact .cons ⟨rfl, hlist⟩ .nil

def selectLists (q : Query) (d : Dialect) (projection : Projection) :
    List (Part × List (List Lexeme)) :=
  let s := q.scope d true
  (.selection, q.projected s projection) ::
    (clauseLists .grouping (q.grouping.map fun p => (s.name p).lexemes) ++
      clauseLists .ordering (q.ordering.map (ordered s)))

/-- The lists of the statement that answers a request. -/
def listsOf (q : Query) (d : Dialect) : Request → List (Part × List (List Lexeme))
  | .select | .first => q.selectLists d .record
  | .count => q.selectLists d .count
  | .rows columns => q.selectLists d (.columns ((columns.mapM q.column).toOption.getD []))
  | .update => [(.settings, q.assignments.map (assigned (q.scope d false)))]
  | .delete => []

section Statements
variable {q : Query} {d : Dialect} {statement : Statement}

theorem holds_writeSelect (hd : d.Delimits) (hnumbers : q.Conditions Predicate.HasNumerals)
    {projection : Projection} (htidy : statement.body.Tidy)
    (h : q.writeSelect projection d = .ok statement) :
    statement.Holds (q.selectLists d projection) := by
  have hmentions := mentions_all q
  have hmay : q.Conditions ((q.scope d true).MayWrite fun _ => True) :=
    mayWrite rfl hd hnumbers hmentions fun _ _ _ => trivial
  obtain ⟨-, distinct, page, hdistinct, hpage, hconsists⟩ :=
    consists_writeSelect hd hmay hmentions (fun _ _ _ => trivial) (fun _ _ _ _ => trivial) htidy h
  refine Statement.holds_of_consists hconsists ?_
  have hpageWords : ∀ w ∈ pageWords, Part.ofSection? w = none := by decide
  have hfiller : distinct ∈ fillers := by
    rcases hdistinct with rfl | rfl <;> decide
  have hselection : AreListsOf (sectionLists (q.selectFront d (distinct ++
      [.sign ","].intercalate (q.projected (q.scope d true) projection))))
      [(.selection, q.projected (q.scope d true) projection)] :=
    .cons ⟨rfl, isListOf_intercalate (fun _ ha => isItem_of_mem_projected ha) hfiller⟩ .nil
  have hgrouping : AreListsOf (sectionLists (clauseSections "GROUP"
      (q.grouping.map fun p => ((q.scope d true).name p).lexemes)))
      (clauseLists .grouping (q.grouping.map fun p => ((q.scope d true).name p).lexemes)) := by
    refine areListsOf_clause rfl fun a ha => ?_
    obtain ⟨p, -, rfl⟩ := List.mem_map.mp ha
    exact .column (by decide) (Scope.isColumn_name _ p)
  have hordering : AreListsOf (sectionLists (clauseSections "ORDER"
      (q.ordering.map (ordered (q.scope d true)))))
      (clauseLists .ordering (q.ordering.map (ordered (q.scope d true)))) := by
    refine areListsOf_clause rfl fun a ha => ?_
    obtain ⟨item, -, rfl⟩ := List.mem_map.mp ha
    exact isItem_ordered _ item
  simp only [sectionLists_append, Scope.sectionLists_joins, Scope.sectionLists_filters,
    sectionLists_eq_nil hpageWords hpage, List.append_nil]
  exact hselection.append (hgrouping.append hordering)

theorem holds_answer (hd : d.Orderly) (hdelimits : d.Delimits)
    (hnumbers : q.Conditions Predicate.HasNumerals) {request : Request}
    (h : q.answer request d = .ok statement) : statement.Holds (q.listsOf d request) := by
  have htidy := tidy_of_hasNumerals hd hnumbers h
  have hmay : q.Conditions ((q.scope d false).MayWrite fun _ => True) :=
    mayWrite rfl hdelimits hnumbers (mentions_all q) fun _ _ _ => trivial
  obtain ⟨-, hwritten⟩ := write_of_answer h
  cases request with
  | select => exact holds_writeSelect hdelimits hnumbers htidy hwritten
  | first =>
    have hlimited : Conditions Predicate.HasNumerals { q with limit := q.limit.or (some 1) } :=
      ⟨hnumbers.filters, hnumbers.joins⟩
    exact holds_writeSelect hdelimits hlimited htidy hwritten
  | count => exact holds_writeSelect hdelimits hnumbers htidy hwritten
  | rows columns =>
    obtain ⟨ps, hps, hwritten⟩ := Result.bind_eq_ok_iff.mp hwritten
    rw [listsOf, hps]
    exact holds_writeSelect hdelimits hnumbers htidy hwritten
  | update =>
    obtain ⟨-, hconsists⟩ := consists_writeUpdate hdelimits hmay htidy hwritten
    refine Statement.holds_of_consists hconsists ?_
    rw [sectionLists_append, Scope.sectionLists_filters, List.append_nil]
    refine .cons ⟨rfl, isListOf_intercalate (fun a ha => ?_) List.mem_cons_self⟩ .nil
    obtain ⟨assignment, -, rfl⟩ := List.mem_map.mp ha
    exact .setting (Scope.isColumn_name _ _) (.param _)
  | delete =>
    obtain ⟨-, hconsists⟩ := consists_writeDelete hdelimits hmay htidy hwritten
    refine Statement.holds_of_consists hconsists ?_
    rw [sectionLists_append, Scope.sectionLists_filters, List.append_nil]
    exact .nil

/-- An update is refused if nothing is assigned. -/
theorem assignments_ne_nil (h : q.answer .update d = .ok statement) : q.assignments ≠ [] := by
  intro hnone
  obtain ⟨draft, hdraft, h⟩ := Result.bind_eq_ok_iff.mp h
  simp only [Query.draft, updateDraft, hnone, List.isEmpty_nil, ↓reduceIte] at hdraft
  obtain ⟨_, -, hdraft⟩ := Result.bind_eq_ok_iff.mp hdraft
  split at hdraft
  · cases hdraft
  · obtain rfl := Except.ok.inj hdraft
    cases h

theorem clauseLists_ne_nil {part : Part} {items : List (List Lexeme)} :
    ∀ list ∈ clauseLists part items, list.2 ≠ [] := by
  unfold clauseLists
  split
  · exact List.forall_mem_nil _
  · next hitems => exact List.forall_mem_singleton.mpr fun hnil => hitems (List.isEmpty_iff.mpr hnil)

theorem forall_selectLists_ne_nil_iff {projection : Projection} :
    (∀ list ∈ q.selectLists d projection, list.2 ≠ []) ↔
      q.projected (q.scope d true) projection ≠ [] := by
  rw [selectLists, List.forall_mem_cons]
  exact and_iff_left (List.forall_mem_append.mpr ⟨clauseLists_ne_nil, clauseLists_ne_nil⟩)

/-- Only single columns can be none at all. -/
theorem forall_listsOf_ne_nil_iff (hrecord : q.source.table.columns ≠ []) {request : Request}
    (h : q.answer request d = .ok statement) :
    (∀ list ∈ q.listsOf d request, list.2 ≠ []) ↔ request ≠ .rows [] := by
  have hprojected : q.projected (q.scope d true) .record ≠ [] := by
    simpa [projected] using hrecord
  cases request with
  | select => exact iff_of_true (forall_selectLists_ne_nil_iff.mpr hprojected) (by simp)
  | first => exact iff_of_true (forall_selectLists_ne_nil_iff.mpr hprojected) (by simp)
  | count => exact iff_of_true (forall_selectLists_ne_nil_iff.mpr (List.cons_ne_nil _ _)) (by simp)
  | rows columns =>
    obtain ⟨-, hwritten⟩ := write_of_answer h
    obtain ⟨ps, hps, -⟩ := Result.bind_eq_ok_iff.mp hwritten
    have hmap : columns.map (fun _ => ()) = ps.map fun _ => () :=
      Result.map_eq_of_mapM_eq_ok hps fun _ _ _ => rfl
    have hnone : ps = [] ↔ columns = [] := by
      rw [← List.map_eq_nil_iff (f := fun _ => ()), ← hmap, List.map_eq_nil_iff]
    rw [listsOf, hps]
    change (∀ list ∈ q.selectLists d (.columns ps), list.2 ≠ []) ↔ _
    rw [forall_selectLists_ne_nil_iff, projected, Ne, List.map_eq_nil_iff, hnone]
    exact not_congr ⟨fun hnil => by rw [hnil], Request.rows.inj⟩
  | update =>
    have hassignments := assignments_ne_nil h
    refine iff_of_true (List.forall_mem_singleton.mpr ?_) (by simp)
    simpa using hassignments
  | delete => exact iff_of_true (List.forall_mem_nil _) (by simp)

end Statements

end Query

/-- The lists of the statements of a task, in the order of the statements. -/
def Dialect.listsOf (d : Dialect) : Task → List (List (Part × List (List Lexeme)))
  | .createTable t => [[(.elements, d.elements t)]]
  | .createIndex _ i => [[(.columns, d.columnItems i.columns)]]
  | .insert t values =>
    [d.rowLists ((t.columns.zip values).filter fun (c, v) => !c.isGenerated v)]
  | .update t values =>
    [[(.settings, ((t.columns.zip values).filter fun (c, _) =>
      !t.isPrimaryKey c.name).map d.cellLexemes)]]
  | .merge t values => d.mergeLists t values
  | .query q request => [q.listsOf d request]
  | .dropTable _ | .delete _ _ => [[]]

/-- The table is that of a sealed mapping. -/
def Table.IsSealed (t : Table) : Prop := ∃ m : Mapping, m.IsSealed ∧ m.table = t

/-- The task is about a sealed table and what belongs to it; the numbers in the conditions of a
query are numerals. -/
def Task.IsSealed : Task → Prop
  | .createTable t | .dropTable t => t.IsSealed
  | .createIndex t i => t.IsSealed ∧ i ∈ t.indexes
  | .insert t _ | .update t _ | .delete t _ | .merge t _ => t.IsSealed
  | .query q _ => q.source.table.IsSealed ∧ q.Conditions Predicate.HasNumerals

/-- The database is to generate every value of a row, or no column is asked for. -/
def Task.LacksItems : Task → Prop
  | .insert t values => ∀ cell ∈ t.columns.zip values, cell.1.isGenerated cell.2 = true
  | .query _ request => request = .rows []
  | _ => False

namespace Statement

theorem forall_isWellListed_iff {statements : List Statement}
    {lists : List (List (Part × List (List Lexeme)))} (h : List.Forall₂ Holds statements lists) :
    (∀ s ∈ statements, s.IsWellListed) ↔ ∀ ls ∈ lists, ∀ list ∈ ls, list.2 ≠ [] := by
  induction h with
  | nil => exact iff_of_true (List.forall_mem_nil _) (List.forall_mem_nil _)
  | cons hfirst _ ih => rw [List.forall_mem_cons, List.forall_mem_cons, ih, hfirst.isWellListed_iff]

end Statement

namespace Dialect
variable {d : Dialect} {task : Task} {statements : List Statement}

theorem holds_statements (hd : d.Delimits) (horderly : d.Orderly) (hdefines : d.Defines)
    (hsealed : task.IsSealed) (h : d.statements task = .ok statements) :
    List.Forall₂ Statement.Holds statements (d.listsOf task) := by
  have hsingle {written : Result Statement} {lists : List (Part × List (List Lexeme))}
      (hholds : ∀ s, written = .ok s → s.Holds lists) (h : written.map ([·]) = .ok statements) :
      List.Forall₂ Statement.Holds statements [lists] := by
    obtain ⟨s, hs, rfl⟩ := Result.map_eq_ok_iff.mp h
    exact .cons (hholds s hs) .nil
  cases task with
  | createTable t =>
    obtain ⟨m, hm, rfl⟩ := hsealed
    obtain rfl := Except.ok.inj h
    exact .cons (holds_createTable hd horderly hdefines hm.consistent.nonempty) .nil
  | dropTable t =>
    obtain rfl := Except.ok.inj h
    exact .cons (holds_dropTable hd horderly) .nil
  | createIndex t i => exact hsingle (fun _ => holds_createIndex hd horderly) h
  | insert t values => exact hsingle (fun _ => holds_insert hd horderly) h
  | update t values => exact hsingle (fun _ => holds_update hd horderly) h
  | delete t values => exact hsingle (fun _ => holds_delete hd horderly) h
  | merge t values => exact holds_merge hd horderly h
  | query q request =>
    exact hsingle (fun _ => Query.holds_answer horderly hd hsealed.2) h

/-- What a sealed table has, and what is refused, leaves no other list empty. -/
theorem forall_listsOf_ne_nil_iff (hsealed : task.IsSealed) (h : d.statements task = .ok statements) :
    (∀ ls ∈ d.listsOf task, ∀ list ∈ ls, list.2 ≠ []) ↔ ¬ task.LacksItems := by
  have htrue {lists : List (Part × List (List Lexeme))} (hlists : ∀ list ∈ lists, list.2 ≠ []) :
      (∀ ls ∈ [lists], ∀ list ∈ ls, list.2 ≠ []) ↔ ¬ False :=
    iff_of_true (List.forall_mem_singleton.mpr hlists) not_false
  cases task with
  | createTable t =>
    obtain ⟨m, hm, rfl⟩ := hsealed
    refine htrue (List.forall_mem_singleton.mpr ?_)
    simp [elements, hm.consistent.nonempty]
  | dropTable t => exact htrue (List.forall_mem_nil _)
  | createIndex t i =>
    obtain ⟨⟨m, hm, rfl⟩, hi⟩ := hsealed
    refine htrue (List.forall_mem_singleton.mpr ?_)
    simpa [columnItems] using (hm.consistent.indexes i hi).2.1
  | insert t values =>
    rw [listsOf, List.forall_mem_singleton, forall_rowLists_ne_nil_iff, Ne, List.filter_eq_nil_iff]
    simp [Task.LacksItems]
  | update t values =>
    obtain ⟨s, hs, rfl⟩ := Result.map_eq_ok_iff.mp h
    have hcells := cells_ne_nil_of_update hs
    refine htrue (List.forall_mem_singleton.mpr ?_)
    exact fun hnil => hcells (List.map_eq_nil_iff.mp hnil)
  | delete t values => exact htrue (List.forall_mem_nil _)
  | merge t values =>
    obtain ⟨m, hm, rfl⟩ := hsealed
    exact iff_of_true (fun ls hls => ne_nil_of_mem_mergeLists hm.consistent.nonempty h hls) not_false
  | query q request =>
    obtain ⟨⟨m, hm, htable⟩, -⟩ := hsealed
    obtain ⟨s, hs, rfl⟩ := Result.map_eq_ok_iff.mp h
    rw [listsOf, List.forall_mem_singleton]
    exact Query.forall_listsOf_ne_nil_iff (htable ▸ hm.consistent.nonempty) hs

/-- Whatever product and version, and whatever task over sealed tables: the lists of the statements
that are written are found in them, item by item. They are as they should be exactly if the task
does not lack items. -/
theorem lists_of_statements {p : Product} {version : ProductVersion} (hsealed : task.IsSealed)
    (h : (ofProduct p version).statements task = .ok statements) :
    List.Forall₂ Statement.Holds statements ((ofProduct p version).listsOf task) ∧
      ((∀ s ∈ statements, s.IsWellListed) ↔ ¬ task.LacksItems) := by
  have hholds := holds_statements (delimits_ofProduct p version) (orderly_ofProduct p version)
    (defines_ofProduct p version) hsealed h
  exact ⟨hholds, (Statement.forall_isWellListed_iff hholds).trans
    (forall_listsOf_ne_nil_iff hsealed h)⟩

def orderAlias : Alias where
  id := 0
  model := { id := 0, typeName := "orders", initial := {}, description := .done }
  mapping := orderMapping
  record := {}

def orderField (name : String) : Argument := .column ⟨some 0, "orders", name, .bigInt, .name⟩

def orderQuery : Query :=
  .run orderAlias
    [.distinct, .groupBy (orderField "line"), .groupBy (orderField "order"),
      .orderBy (orderField "order") true, .orderBy (orderField "line") false, .limitTo 5]

def orderSql : String :=
  "SELECT DISTINCT T1.\"line\", T1.\"order\" FROM \"shop\".\"orders\" T1 " ++
    "GROUP BY T1.\"line\", T1.\"order\" ORDER BY T1.\"order\" DESC, T1.\"line\" LIMIT 5"

theorem lists_of_orderQuery :
    let task := Task.query orderQuery (.rows [orderField "line", orderField "order"])
    task.IsSealed ∧ ∃ s, (ofProduct .postgreSql .zero).statements task = .ok [s] ∧
      s.sql = orderSql ∧ s.parts = [.selection, .grouping, .ordering] ∧ s.IsWellListed := by
  intro task
  have hsealed : task.IsSealed :=
    ⟨⟨orderMapping, isSealed_orderMapping, rfl⟩, List.forall_mem_nil _, List.forall_mem_nil _⟩
  have hwritten : (ofProduct .postgreSql .zero).statements task = .ok [_] := rfl
  obtain ⟨hholds, hlisted⟩ := lists_of_statements hsealed hwritten
  have hparts := (List.forall₂_cons.mp hholds).1.parts_eq
  refine ⟨hsealed, _, hwritten, ?_, hparts, ?_⟩
  · decide +kernel
  · exact hlisted.mpr nofun _ List.mem_cons_self

def ticketMapping : Mapping where
  table := { name := "tickets", columns := [(keyField "id" true).column], primaryKey := ["id"] }
  fields := [keyField "id" true]

theorem isSealed_ticketMapping : ticketMapping.IsSealed := ⟨ticketMapping, "tickets", rfl⟩

def ticketQuery : Query where
  source :=
    { id := 0
      model := { id := 0, typeName := "tickets", initial := {}, description := .done }
      mapping := ticketMapping
      record := {} }

/-- The only value of a row is generated; and a query is asked for no column. -/
theorem empty_lists_tickets :
    (Task.insert ticketMapping.table [.int64 0]).IsSealed ∧
      (Task.query ticketQuery (.rows [])).IsSealed ∧
      ∃ inserted selected,
        (ofProduct .sqlite .zero).statements (.insert ticketMapping.table [.int64 0]) =
          .ok [inserted] ∧
        (ofProduct .sqlite .zero).statements (.query ticketQuery (.rows [])) = .ok [selected] ∧
        inserted.sql = "INSERT INTO \"tickets\" () VALUES ()" ∧ ¬ inserted.IsWellListed ∧
        selected.sql = "SELECT  FROM \"tickets\" T1" ∧ ¬ selected.IsWellListed := by
  have hdelimits := delimits_ofProduct .sqlite .zero
  have horderly := orderly_ofProduct .sqlite .zero
  have hsealed : Table.IsSealed ticketMapping.table := ⟨ticketMapping, isSealed_ticketMapping, rfl⟩
  have hnumbers : ticketQuery.Conditions Predicate.HasNumerals :=
    ⟨List.forall_mem_nil _, List.forall_mem_nil _⟩
  have hinsert : (ofProduct .sqlite .zero).insert ticketMapping.table [.int64 0] = .ok _ := rfl
  have hselect : ticketQuery.answer (.rows []) (ofProduct .sqlite .zero) = .ok _ := rfl
  have hinserted := holds_insert hdelimits horderly hinsert
  have hselected := Query.holds_answer horderly hdelimits hnumbers hselect
  refine ⟨hsealed, ⟨hsealed, hnumbers⟩, _, _, rfl, rfl, ?_, fun hlisted => ?_, ?_, fun hlisted => ?_⟩
  · decide
  · exact hinserted.isWellListed_iff.mp hlisted _ List.mem_cons_self rfl
  · decide
  · exact hselected.isWellListed_iff.mp hlisted _ List.mem_cons_self rfl

end Dialect

end RecordMapper
