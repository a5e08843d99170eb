import RecordMapper.Proofs.Query.Lexemes

/-!
# Pieces of a query

The tables, columns and conditions of a query are pieces: they are read alike wherever they are
written. Conditions are written one behind the other without parentheses around them, and make the
sections `WHERE` and `ON` of a statement.
-/

set_option autoImplicit false

namespace RecordMapper

open Lexeme

def JoinKind.word : JoinKind → String
  | inner => "INNER"
  | left => "LEFT"

namespace Connective

theorem delimited_joiner (c : Connective) : Delimited (Sql.chars c.joiner) [c.lexeme] := by
  cases c <;> exact fun _ => rfl

@[simp] theorem head_joiner (c : Connective) : (Sql.chars c.joiner).head? = some (.char ' ') := by
  cases c <;> rfl

theorem isBody_lexeme {Q : String → Prop} (c : Connective) : IsBody Q [c.lexeme] := by
  cases c <;> exact .word (by decide)

end Connective

namespace Dialect
variable {d : Dialect} {Q : String → Prop}

theorem isPiece_tableName (hd : d.Delimits) (t : Table) :
    IsPiece Q (Sql.chars (d.tableName t)) (d.tablePath t).lexemes := by
  rw [← text_tablePath]
  exact ⟨QualifiedName.spells (hd.isValid_tablePath t), isBody_tablePath d t⟩

/-- A table and the name that it is given. -/
theorem isPiece_table (hd : d.Delimits) (t : Table) (i : Nat) :
    IsPiece Q (Sql.chars (d.tableName t ++ " T" ++ Numeral.ofNat (i + 1)))
      ((d.tablePath t).lexemes ++ [.word (tableAlias i)]) := by
  have htext : d.tableName t ++ " T" ++ Numeral.ofNat (i + 1) =
      d.tableName t ++ (" " ++ tableAlias i) := by
    have hblank : " T" = " " ++ "T" := rfl
    rw [tableAlias, hblank, String.append_assoc, String.append_assoc]
  have hblank : Delimited (Sql.chars " ") [] := fun _ => rfl
  have halias : Spells (Sql.chars (" " ++ tableAlias i)) [.word (tableAlias i)] := by
    rw [Sql.chars_append]
    exact hblank.append_spells (Spells.word (isRegular_tableAlias i))
  have hbreaks : scanner.Breaks (Sql.chars (" " ++ tableAlias i)) := by
    intro first hfirst
    rw [Sql.chars_append] at hfirst
    obtain rfl := Option.some.inj hfirst
    rfl
  have hbody : IsBody Q [.word (tableAlias i)] := .word (beginsSection_tableAlias i)
  rw [htext, Sql.chars_append]
  exact (isPiece_tableName hd t).append ⟨halias, hbody⟩ hbreaks

section Statements
variable (hd : d.Delimits) {t : Table} {condition : Sql} {secs : List StatementSection}
  (hcondition : Lays Q condition.atoms secs)
include hd hcondition

theorem consists_update {assignments : Sql} {ls : List Lexeme}
    (hassignments : IsPiece Q assignments.atoms ls)
    (htidy : (Sql.text ("UPDATE " ++ d.tableName t ++ " SET ") ++ assignments ++ condition).Tidy) :
    (d.statement (Sql.text ("UPDATE " ++ d.tableName t ++ " SET ") ++ assignments ++
      condition)).Consists Q ([("UPDATE", (d.tablePath t).lexemes), ("SET", ls)] ++ secs) := by
  have htable := isPiece_tableName (Q := Q) hd t
  have hupdate : Delimited (Sql.chars "UPDATE ") [.word "UPDATE"] := fun _ => rfl
  have hset : Delimited (Sql.chars " SET ") [.word "SET"] := fun _ => rfl
  have hsets := Lays.word (by decide) hset rfl rfl hassignments
  have hword : Text.upper "UPDATE" ∈ sectionWords := by decide
  have hbegun : IsSection Q ("UPDATE", (d.tablePath t).lexemes) := ⟨hword, htable.body⟩
  have hconsists := Statement.consists_of_tidy (s := d.statement _) htidy ?_ hupdate htable.spells
    (ofSections_singleton ("UPDATE", (d.tablePath t).lexemes)).symm
    (List.forall_mem_singleton.mpr hbegun) (hsets.append hcondition)
  · exact hconsists
  · simp [Dialect.statement]

theorem consists_delete (htidy : (Sql.text ("DELETE FROM " ++ d.tableName t) ++ condition).Tidy) :
    (d.statement (Sql.text ("DELETE FROM " ++ d.tableName t) ++ condition)).Consists Q
      ([("DELETE", []), ("FROM", (d.tablePath t).lexemes)] ++ secs) := by
  have htable := isPiece_tableName (Q := Q) hd t
  have hdelete : Delimited (Sql.chars "DELETE FROM ") [.word "DELETE", .word "FROM"] :=
    fun _ => rfl
  have hword : Text.upper "DELETE" ∈ sectionWords := by decide
  have hfrom : Text.upper "FROM" ∈ sectionWords := by decide
  have hbegun : ∀ sec ∈ [("DELETE", []), ("FROM", (d.tablePath t).lexemes)], IsSection Q sec :=
    List.forall_mem_cons.mpr ⟨⟨hword, (isAdditive_isBody Q).nil⟩,
      List.forall_mem_singleton.mpr ⟨hfrom, htable.body⟩⟩
  have hlexemes : [.word "DELETE", .word "FROM"] ++ (d.tablePath t).lexemes =
      ofSections [("DELETE", []), ("FROM", (d.tablePath t).lexemes)] := by
    rw [ofSections_cons, ofSections_singleton]
    rfl
  refine Statement.consists_of_tidy htidy ?_ hdelete htable.spells hlexemes hbegun hcondition
  simp [Dialect.statement]

end Statements

end Dialect

namespace Scope

/-- What the text of the condition is cut into; nothing if it cannot be written. -/
def condition (s : Scope) (p : Predicate) : List Lexeme :=
  match s.predicate p with
  | .ok sql => sql.lexemes
  | .error _ => []

def filterSections (s : Scope) (filters : List (Connective × Predicate)) : List StatementSection :=
  if filters.isEmpty then []
  else [("WHERE", Connective.chained (filters.map fun f => (f.1, s.condition f.2)))]

def onSections (s : Scope) (on : List Predicate) : List StatementSection :=
  if on.isEmpty then [] else [("ON", [.word "AND"].intercalate (on.map s.condition))]

/-- The sections of a join whose table is in position `i`. -/
def joinSections (s : Scope) (j : Join) (i : Nat) : List StatementSection :=
  [(j.kind.word, []),
    ("JOIN", (s.dialect.tablePath j.source.table).lexemes ++ [.word (tableAlias i)])] ++
    s.onSections j.on

theorem word_of_mem_joinSections {s : Scope} {j : Join} {i : Nat} {sec : StatementSection}
    (h : sec ∈ s.joinSections j i) : sec.1 ∈ ["INNER", "LEFT", "JOIN", "ON"] := by
  have hkind : j.kind.word ∈ ["INNER", "LEFT", "JOIN", "ON"] := by cases j.kind <;> decide
  rcases List.mem_append.mp h with h | h
  · rcases List.mem_cons.mp h with rfl | h
    · exact hkind
    · obtain rfl := List.mem_singleton.mp h
      simp
  · unfold onSections at h
    split at h
    · exact absurd h List.not_mem_nil
    · obtain rfl := List.mem_singleton.mp h
      simp

/-- The condition can be written, and what is written is a condition. -/
def Writes (s : Scope) (Q : String → Prop) (p : Predicate) : Prop :=
  ∃ sql, s.predicate p = .ok sql ∧ sql.IsCondition Q

/-- Whatever is written for the condition is a condition. -/
def MayWrite (s : Scope) (Q : String → Prop) (p : Predicate) : Prop :=
  ∀ sql, s.predicate p = .ok sql → sql.IsCondition Q

section Conditions
variable {s : Scope} {Q : String → Prop} {p : Predicate} {sql : Sql}

theorem condition_eq (h : s.predicate p = .ok sql) : s.condition p = sql.lexemes := by
  rw [condition, h]

theorem Writes.isSelfContained (h : s.Writes Q p) : IsSelfContained (s.condition p) := by
  obtain ⟨sql, hsql, hcondition⟩ := h
  rw [condition_eq hsql]
  exact hcondition.selfContained

theorem isPiece_condition (h : s.predicate p = .ok sql) (hmay : s.MayWrite Q p) :
    IsPiece Q sql.atoms (s.condition p) := by
  rw [condition_eq h]
  exact ⟨(hmay sql h).spells, (hmay sql h).body⟩

theorem Writes.isBody (h : s.Writes Q p) : IsBody Q (s.condition p) := by
  obtain ⟨sql, hsql, hcondition⟩ := h
  rw [condition_eq hsql]
  exact hcondition.body

/-- The filters behind the first one, each with its connective before it. -/
def joinedFilters (s : Scope) (rest : List (Connective × Predicate)) : List Lexeme :=
  rest.flatMap fun f => f.1.lexeme :: s.condition f.2

theorem isBody_joinedFilters {rest : List (Connective × Predicate)}
    (h : ∀ f ∈ rest, s.Writes Q f.2) : IsBody Q (s.joinedFilters rest) := by
  refine (isAdditive_isBody Q).flatMap fun f hf => ?_
  exact (isAdditive_isBody Q).append f.1.isBody_lexeme (h f hf).isBody

theorem filterSections_cons (s : Scope) (f : Connective × Predicate)
    (rest : List (Connective × Predicate)) :
    s.filterSections (f :: rest) = [("WHERE", s.condition f.2 ++ s.joinedFilters rest)] := by
  rw [filterSections, List.isEmpty_cons, if_neg Bool.false_ne_true, List.map_cons,
    Connective.chained, List.flatMap_map]
  rfl

theorem lays_filters {filters : List (Connective × Predicate)}
    (hmay : ∀ f ∈ filters, s.MayWrite Q f.2) (h : s.filters filters = .ok sql) :
    Lays Q sql.atoms (s.filterSections filters) ∧ ∀ f ∈ filters, s.Writes Q f.2 := by
  cases filters with
  | nil =>
    obtain rfl := Except.ok.inj h
    exact ⟨.nil, List.forall_mem_nil _⟩
  | cons first rest =>
    obtain ⟨c, p⟩ := first
    obtain ⟨begun, hbegun, h⟩ := Result.bind_eq_ok_iff.mp h
    obtain ⟨others, hothers, h⟩ := Result.bind_eq_ok_iff.mp h
    obtain rfl := Except.ok.inj h
    obtain ⟨hmayFirst, hmayRest⟩ := List.forall_mem_cons.mp hmay
    have hfirst := isPiece_condition hbegun hmayFirst
    have hwritten : ∀ f ∈ rest, s.Writes Q f.2 := by
      intro f hf
      obtain ⟨piece, hpiece⟩ := Result.exists_of_mem_of_mapM_eq_ok hothers hf
      obtain ⟨written, hwritten, -⟩ := Result.bind_eq_ok_iff.mp hpiece
      exact ⟨written, hwritten, hmayRest f hf written hwritten⟩
    have hrest : Follows (Sql.atoms others.flatten) (s.joinedFilters rest) := by
      refine .flatten hothers ?_
      rintro ⟨c, p⟩ hf piece hpiece
      obtain ⟨written, hwritten, hpiece⟩ := Result.bind_eq_ok_iff.mp hpiece
      obtain rfl := Except.ok.inj hpiece
      have hcondition := isPiece_condition hwritten (hmayRest (c, p) hf)
      rw [Sql.atoms_append, Sql.atoms_text]
      exact c.delimited_joiner.follows c.head_joiner rfl hcondition.spells
    have hbody : IsBody Q (s.condition p ++ s.joinedFilters rest) :=
      (isAdditive_isBody Q).append hfirst.body (isBody_joinedFilters hwritten)
    have hwhere : Delimited (Sql.chars " WHERE ") [.word "WHERE"] := fun _ => rfl
    refine ⟨?_, List.forall_mem_cons.mpr ⟨⟨begun, hbegun, hmayFirst begun hbegun⟩, hwritten⟩⟩
    rw [filterSections_cons, Sql.atoms_append, Sql.atoms_append, Sql.atoms_text, List.append_assoc]
    exact .word (by decide) hwhere rfl rfl ⟨hfirst.spells.append_follows hrest, hbody⟩

theorem lays_on {on : List Predicate} (hmay : ∀ p ∈ on, s.MayWrite Q p) {conditions : List Sql}
    (h : on.mapM s.predicate = .ok conditions) :
    Lays Q (Sql.atoms (if conditions.isEmpty then [] else
      Sql.text " ON " ++ Sql.separated " AND " conditions)) (s.onSections on) ∧
      ∀ p ∈ on, s.Writes Q p := by
  have hwrites : ∀ p ∈ on, s.Writes Q p := by
    intro p hp
    obtain ⟨sql, hsql⟩ := Result.exists_of_mem_of_mapM_eq_ok h hp
    exact ⟨sql, hsql, hmay p hp sql hsql⟩
  have hconditions : ∀ sql ∈ conditions, sql.IsCondition Q := by
    intro sql hsql
    obtain ⟨p, hp, hwritten⟩ := Result.exists_of_mapM_eq_ok h hsql
    exact hmay p hp sql hwritten
  have hmap : on.map s.condition = conditions.map Sql.lexemes :=
    Result.map_eq_of_mapM_eq_ok h fun p sql hsql => condition_eq hsql
  have hempty : on.isEmpty = conditions.isEmpty := by
    have hempty := congrArg List.isEmpty hmap
    rwa [List.isEmpty_map, List.isEmpty_map] at hempty
  refine ⟨?_, hwrites⟩
  rw [onSections, hempty, hmap]
  split
  · exact .nil
  · have hon : Delimited (Sql.chars " ON ") [.word "ON"] := fun _ => rfl
    rw [Sql.atoms_append, Sql.atoms_text]
    exact .word (by decide) hon rfl rfl (.conjunction fun sql hsql =>
      ⟨(hconditions sql hsql).spells, (hconditions sql hsql).body⟩)

theorem lays_join (hd : s.dialect.Delimits) {j : Join} (hmay : ∀ p ∈ j.on, s.MayWrite Q p) {i : Nat}
    (h : Query.joinClause s j i = .ok sql) :
    Lays Q sql.atoms (s.joinSections j i) ∧ ∀ p ∈ j.on, s.Writes Q p := by
  obtain ⟨conditions, hconditions, h⟩ := Result.bind_eq_ok_iff.mp h
  obtain rfl := Except.ok.inj h
  obtain ⟨hon, hwrites⟩ := lays_on hmay hconditions
  have htable := Dialect.isPiece_table (Q := Q) hd j.source.table i
  refine ⟨?_, hwrites⟩
  rw [Sql.atoms_append, Sql.atoms_text, String.append_assoc, String.append_assoc,
    Sql.chars_append, ← String.append_assoc]
  refine Lays.append ?_ hon
  have hkeyword : Delimited (Sql.chars j.kind.keyword) [.word j.kind.word, .word "JOIN"] := by
    cases j.kind <;> exact fun _ => rfl
  have hblank : (Sql.chars j.kind.keyword).head? = some (.char ' ') := by
    cases j.kind <;> rfl
  have hkind : Text.upper j.kind.word ∈ sectionWords := by cases j.kind <;> decide
  have hjoin : Text.upper "JOIN" ∈ sectionWords := by decide
  refine .keyword hkeyword hblank rfl htable.spells ?_ ?_
  · rw [ofSections_cons, ofSections_singleton]
    rfl
  · refine List.forall_mem_cons.mpr ⟨⟨hkind, (isAdditive_isBody Q).nil⟩, ?_⟩
    exact List.forall_mem_singleton.mpr ⟨hjoin, htable.body⟩

theorem isPiece_column (hd : s.dialect.Delimits) {position : ColumnPosition}
    (h : s.Admits Q position) :
    IsPiece Q (Sql.text (s.column position)).atoms (s.name position).lexemes := by
  have hname := isName_name hd h
  rw [Sql.atoms_text, ← text_name]
  exact ⟨QualifiedName.spells hname.valid, hname.body⟩

theorem isPiece_columns (hd : s.dialect.Delimits) {ps : List ColumnPosition}
    (h : ∀ position ∈ ps, s.Admits Q position) :
    IsPiece Q (s.columns ps).atoms
      ([.sign ","].intercalate (ps.map fun position => (s.name position).lexemes)) :=
  .commas fun position hposition => isPiece_column hd (h position hposition)

end Conditions

end Scope

end RecordMapper
