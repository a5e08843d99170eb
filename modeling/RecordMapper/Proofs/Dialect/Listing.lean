import RecordMapper.Proofs.Dialect.Pairing
import RecordMapper.Proofs.Query.Sections
import RecordMapper.Proofs.Statement.Listing

/-!
# The lists of statements that write rows

The lists that are found in statements that insert, merge, update and delete rows, with their items.
Names are quoted and values are parameters; so no comma is written but those between items.
-/

set_option autoImplicit false

namespace RecordMapper

open Lexeme
open Sql (atoms_append atoms_text)
open Sql (chars chars_append)

namespace Dialect

/-- Names in the quotes of the dialect. -/
def columnItems (d : Dialect) (names : List String) : List (List Lexeme) :=
  names.map fun name => [.quoted d.identifierMark name]

def valueItems (values : List Value) : List (List Lexeme) := values.map fun v => [.param v]

theorem isColumn_of_mem_columnItems {d : Dialect} {names : List String} {a : List Lexeme}
    (h : a ∈ d.columnItems names) : IsColumn a := by
  obtain ⟨name, -, rfl⟩ := List.mem_map.mp h
  exact .plain _ _

theorem isListOf_columnItems {d : Dialect} (names : List String) {part : Part}
    (hpart : part ∈ [.selection, .columns, .keys, .grouping, .ordering]) :
    IsListOf part (d.columnItems names) ([.sign ","].intercalate (d.columnItems names)) :=
  isListOf_intercalate (fun _ h => .column hpart (isColumn_of_mem_columnItems h)) List.mem_cons_self

theorem isListOf_valueItems (values : List Value) :
    IsListOf .values (valueItems values) ([.sign ","].intercalate (valueItems values)) := by
  refine isListOf_intercalate (fun a h => ?_) List.mem_cons_self
  obtain ⟨v, -, rfl⟩ := List.mem_map.mp h
  exact .param v

theorem isBalanced_columnItems (d : Dialect) (names : List String) :
    IsBalanced .round ([.sign ","].intercalate (d.columnItems names)) :=
  isBalanced_intercalate fun _ h => (isColumn_of_mem_columnItems h).isClosed

theorem isBalanced_valueItems (values : List Value) :
    IsBalanced .round ([.sign ","].intercalate (valueItems values)) := by
  refine isBalanced_intercalate fun a h => ?_
  obtain ⟨v, -, rfl⟩ := List.mem_map.mp h
  exact .singleton ⟨rfl, rfl⟩ rfl

theorem isKeyword_tablePath (d : Dialect) (t : Table) : IsKeyword (d.tablePath t).lexemes := by
  unfold tablePath
  cases t.schema with
  | none => exact List.forall_mem_singleton.mpr ⟨⟨rfl, rfl⟩, rfl⟩
  | some schema =>
    intro x hx
    simp only [QualifiedName.lexemes, namePart, NamePart.lexeme, List.flatMap_cons,
      List.flatMap_nil, List.append_nil, List.mem_cons, List.not_mem_nil, or_false] at hx
    rcases hx with rfl | rfl | rfl <;> exact ⟨⟨rfl, rfl⟩, rfl⟩

@[simp] theorem lastWord_tablePath (d : Dialect) (t : Table) (last : String) :
    lastWord last (d.tablePath t).lexemes = last := by
  unfold tablePath
  cases t.schema <;> rfl

theorem spells_valueItems (values : List Value) :
    Spells (Sql.commas (values.map Sql.param)).atoms
      ([.sign ","].intercalate (valueItems values)) :=
  .commas fun v _ => (Scanner.Delimited.param v).spells

section Statements
variable {d : Dialect} (hd : d.Delimits)
include hd

theorem Delimits.spells_quote (name : String) :
    Spells (chars (d.quote name)) [.quoted d.identifierMark name] := .quoted hd.mark name

theorem Delimits.spells_names (names : List String) :
    Spells (d.names names).atoms ([.sign ","].intercalate (d.columnItems names)) :=
  .commas fun name _ => by
    rw [atoms_text]
    exact hd.spells_quote name

theorem Delimits.spells_tableName (t : Table) :
    Spells (chars (d.tableName t)) (d.tablePath t).lexemes := by
  rw [← text_tablePath]
  exact QualifiedName.spells (hd.isValid_tablePath t)

end Statements
end Dialect

/-- A list in parentheses behind something else. -/
theorem Lexeme.Spells.enclose {a b : List Atom} {ls ms : List Lexeme} (ha : Spells a ls)
    (hb : Spells b ms) : Delimited (a ++ (chars " (" ++ (b ++ chars ")")))
      (ls ++ ([.sign "("] ++ ms ++ [.sign ")"])) := by
  have hopen : Delimited (chars " (") [.sign "("] := fun _ => rfl
  have hclose : Delimited (chars ")") [.sign ")"] := fun _ => rfl
  have hall := ((ha.append_delimited hopen rfl rfl).append_spells hb).append_delimited hclose rfl rfl
  simpa only [List.append_assoc] using hall

/-- A word before a list in parentheses, behind something that has ended. -/
theorem Lexeme.Delimited.word {a : List Atom} {ls : List Lexeme} (ha : Delimited a ls) {w : String}
    (hw : isRegular w.toList = true) : Spells (a ++ chars (" " ++ w)) (ls ++ [.word w]) := by
  have hblank : Delimited (chars " ") [] := fun _ => rfl
  rw [chars_append]
  exact ha.append_spells (hblank.append_spells (Spells.word hw))

namespace Dialect

/-- A row as it is inserted: its table, its columns and its values. -/
def rowLexemes (d : Dialect) (t : Table) (cells : List (Column × Value)) : List Lexeme :=
  (d.tablePath t).lexemes ++
    ([.sign "("] ++ [.sign ","].intercalate (d.columnItems (cells.map (·.1.name))) ++ [.sign ")"]) ++
    ([.word "VALUES"] ++
      ([.sign "("] ++ [.sign ","].intercalate (valueItems (cells.map (·.2))) ++ [.sign ")"]))

/-- The lists of a row that is inserted. -/
def rowLists (d : Dialect) (cells : List (Column × Value)) : List (Part × List (List Lexeme)) :=
  [(.columns, d.columnItems (cells.map (·.1.name))), (.values, valueItems (cells.map (·.2)))]

theorem forall_rowLists_ne_nil_iff {d : Dialect} {cells : List (Column × Value)} :
    (∀ list ∈ d.rowLists cells, list.2 ≠ []) ↔ cells ≠ [] := by
  simp [rowLists, columnItems, valueItems]

section Rows
variable {d : Dialect} (hd : d.Delimits) {t : Table} {cells : List (Column × Value)}
include hd

theorem delimited_rowLexemes : Delimited (d.valuesClause t cells).atoms (d.rowLexemes t cells) := by
  have hcolumns := (hd.spells_tableName t).enclose (hd.spells_names (cells.map (·.1.name)))
  have hparams : Spells (Sql.commas (cells.map fun cell => Sql.param cell.2)).atoms
      ([.sign ","].intercalate (valueItems (cells.map (·.2)))) := by
    have hall := spells_valueItems (cells.map (·.2))
    rw [List.map_map] at hall
    exact hall
  have hvalues := (hcolumns.word (w := "VALUES") rfl).enclose hparams
  have hatoms : chars ") VALUES (" = chars ")" ++ (chars (" " ++ "VALUES") ++ chars " (") := rfl
  simpa [valuesClause, rowLexemes, hatoms] using hvalues

omit hd in
theorem enclosures_row {keyword : List Lexeme} (h : IsKeyword keyword)
    (hlast : lastWord "" keyword = "INTO") (rest : List Lexeme) :
    enclosures "" [] (keyword ++ d.rowLexemes t cells ++ rest) =
      ("INTO", [.sign ","].intercalate (d.columnItems (cells.map (·.1.name)))) ::
        ("VALUES", [.sign ","].intercalate (valueItems (cells.map (·.2)))) ::
          enclosures "VALUES" [] rest := by
  have hbegun := (h.append (isKeyword_tablePath d t)).enclosures_enclosed
    (isBalanced_columnItems d (cells.map (·.1.name))) ""
  have hword : IsKeyword [.word "VALUES"] := by decide
  have hvalues := hword.enclosures_enclosed (isBalanced_valueItems (cells.map (·.2))) "INTO" rest
  rw [lastWord_append, hlast, lastWord_tablePath] at hbegun
  rw [rowLexemes]
  simp only [List.append_assoc] at hbegun hvalues ⊢
  rw [hbegun, hvalues]
  rfl

/-- A row is inserted, and something may be said of rows that are there already. -/
theorem holds_row {keyword : String} {ks : List Lexeme} (hk : Delimited (chars keyword) ks)
    (hkeyword : IsKeyword ks) (hlast : lastWord "" ks = "INTO") (hopens : enclosesLists ks = true)
    {more : Sql} {ms : List Lexeme} (hmore : Spells more.atoms ms)
    (htidy : (Sql.text keyword ++ d.valuesClause t cells ++ more).Tidy)
    {lists : List (Part × List (List Lexeme))}
    (hlists : AreListsOf (namedLists (enclosures "VALUES" [] ms)) lists) :
    (d.statement (Sql.text keyword ++ d.valuesClause t cells ++ more)).Holds
      (d.rowLists cells ++ lists) := by
  have hspells : Spells (Sql.text keyword ++ d.valuesClause t cells ++ more).atoms
      (ks ++ d.rowLexemes t cells ++ ms) := by
    rw [atoms_append, atoms_append, atoms_text, List.append_assoc, List.append_assoc]
    exact hk.append_spells ((delimited_rowLexemes hd).append_spells hmore)
  have hlexemes : (d.statement (Sql.text keyword ++ d.valuesClause t cells ++ more)).lexemes =
      ks ++ d.rowLexemes t cells ++ ms :=
    (Sql.Tidy.lexemes_eq htidy).trans hspells.read_eq
  have hencloses : enclosesLists (ks ++ d.rowLexemes t cells ++ ms) = true := by
    cases ks with
    | nil => cases hopens
    | cons first rest => exact hopens
  rw [Statement.Holds, Statement.lists, hlexemes, if_pos hencloses, enclosures_row hkeyword hlast]
  have hcolumns : IsListOf .columns (d.columnItems (cells.map (·.1.name))) _ :=
    isListOf_columnItems _ (by decide)
  exact .cons ⟨rfl, hcolumns⟩ (.cons ⟨rfl, isListOf_valueItems _⟩ hlists)

theorem holds_bareRow {keyword : String} {ks : List Lexeme} (hk : Delimited (chars keyword) ks)
    (hkeyword : IsKeyword ks) (hlast : lastWord "" ks = "INTO") (hopens : enclosesLists ks = true)
    (htidy : (Sql.text keyword ++ d.valuesClause t cells).Tidy) :
    (d.statement (Sql.text keyword ++ d.valuesClause t cells)).Holds (d.rowLists cells) := by
  have hnone : Spells (Sql.atoms []) [] := Scanner.Delimited.nil.spells
  rw [← List.append_nil (_ ++ d.valuesClause t cells)] at htidy ⊢
  rw [← List.append_nil (d.rowLists cells)]
  exact holds_row hd hk hkeyword hlast hopens hnone htidy .nil

theorem holds_insert {values : List Value} {s : Statement} (horderly : d.Orderly)
    (h : d.insert t values = .ok s) :
    s.Holds (d.rowLists ((t.columns.zip values).filter fun (c, v) => !c.isGenerated v)) := by
  have htidy := horderly.insert h
  obtain ⟨_, -, h⟩ := Result.bind_eq_ok_iff.mp h
  obtain rfl := Except.ok.inj h
  have hinsert : Delimited (chars "INSERT INTO ") [.word "INSERT", .word "INTO"] := fun _ => rfl
  exact holds_bareRow hd hinsert (by decide) rfl rfl htidy

/-- What is assigned behind `ON DUPLICATE KEY UPDATE`. -/
def duplicateItems (d : Dialect) (t : Table) : List (List Lexeme) :=
  if t.otherColumns = [] then
    let key : Lexeme := .quoted d.identifierMark (t.primaryKey.headD "")
    [[key] ++ ([.sign "="] ++ [key])]
  else
    t.otherColumns.map fun c =>
      let name : Lexeme := .quoted d.identifierMark c.name
      [name] ++ ([.sign "="] ++ ([.word "VALUES"] ++ ([.sign "("] ++ [name] ++ [.sign ")"])))

/-- What is assigned behind `DO UPDATE SET`. -/
def conflictItems (d : Dialect) (t : Table) : List (List Lexeme) :=
  t.otherColumns.map fun c =>
    let name : Lexeme := .quoted d.identifierMark c.name
    [name] ++ ([.sign "="] ++ [.word "EXCLUDED", .sign ".", name])

omit hd in
theorem isItem_of_mem_duplicateItems {a : List Lexeme} (h : a ∈ d.duplicateItems t) :
    IsItem .settings a := by
  unfold duplicateItems at h
  split at h
  · obtain rfl := List.mem_singleton.mp h
    exact .setting (.plain _ _) (.column (.plain _ _))
  · obtain ⟨c, -, rfl⟩ := List.mem_map.mp h
    exact .setting (.plain _ _) (.inserted (.plain _ _))

omit hd in
theorem isItem_of_mem_conflictItems {a : List Lexeme} (h : a ∈ d.conflictItems t) :
    IsItem .settings a := by
  obtain ⟨c, -, rfl⟩ := List.mem_map.mp h
  exact .setting (.plain _ _) (.column (.qualified _ _ _))

theorem spells_duplicateItems : Spells (d.duplicateUpdates t).atoms
    ([.sign ","].intercalate (d.duplicateItems t)) := by
  unfold duplicateUpdates duplicateItems
  simp only [List.isEmpty_map, List.isEmpty_iff]
  split
  · have hequals : Delimited (chars " = ") [.sign "="] := fun _ => rfl
    have hkey := hd.spells_quote (t.primaryKey.headD "")
    rw [List.intercalate_singleton, atoms_text, chars_append, chars_append, List.append_assoc]
    exact hkey.append (hequals.append_spells hkey) (by rintro _ ⟨⟩; rfl)
  · refine .commas fun c _ => ?_
    have hopen : Delimited (chars " = VALUES(") [.sign "=", .word "VALUES", .sign "("] :=
      fun _ => rfl
    have hclose : Delimited (chars ")") [.sign ")"] := fun _ => rfl
    have hname := hd.spells_quote c.name
    have hall := ((hname.append_delimited hopen rfl rfl).append_spells hname).append_delimited
      hclose rfl rfl
    rw [atoms_text, chars_append, chars_append, chars_append]
    exact hall.spells

theorem spells_conflictItems : Spells (Sql.commas (t.otherColumns.map fun c =>
      Sql.text (d.quote c.name ++ " = EXCLUDED." ++ d.quote c.name))).atoms
    ([.sign ","].intercalate (d.conflictItems t)) := by
  refine .commas fun c _ => ?_
  have hequals : Delimited (chars " = ") [.sign "="] := fun _ => rfl
  have hvalid : QualifiedName.IsValid ⟨.regular "EXCLUDED", [d.namePart c.name]⟩ :=
    ⟨⟨rfl, by decide⟩, List.forall_mem_singleton.mpr (hd.isValid_namePart c.name)⟩
  have hname := hd.spells_quote c.name
  have hall := (hname.append_delimited hequals rfl rfl).append_spells (QualifiedName.spells hvalid)
  have htext : d.quote c.name ++ " = EXCLUDED." ++ d.quote c.name =
      d.quote c.name ++ " = " ++ ("EXCLUDED" ++ ("." ++ d.quote c.name ++ "")) := by
    have hword : " = EXCLUDED." = " = " ++ ("EXCLUDED" ++ ".") := rfl
    rw [hword, String.append_empty]
    simp only [String.append_assoc]
  rw [atoms_text, htext, chars_append, chars_append]
  exact hall

theorem holds_onDuplicateKey {values : List Value}
    (htidy : (d.insertAll t values ++ Sql.text " ON DUPLICATE KEY UPDATE " ++
      d.duplicateUpdates t).Tidy) :
    (d.statement (d.insertAll t values ++ Sql.text " ON DUPLICATE KEY UPDATE " ++
      d.duplicateUpdates t)).Holds
        (d.rowLists (t.columns.zip values) ++ [(.settings, d.duplicateItems t)]) := by
  have hinsert : Delimited (chars "INSERT INTO ") [.word "INSERT", .word "INTO"] := fun _ => rfl
  have hduplicate : Delimited (chars " ON DUPLICATE KEY UPDATE ")
      [.word "ON", .word "DUPLICATE", .word "KEY", .word "UPDATE"] := fun _ => rfl
  have hmore := hduplicate.append_spells (spells_duplicateItems hd (t := t))
  rw [← atoms_text, ← atoms_append] at hmore
  have hsettings : IsListOf .settings (d.duplicateItems t) _ :=
    isListOf_intercalate (fun _ h => isItem_of_mem_duplicateItems h) List.mem_cons_self
  rw [insertAll, List.append_assoc] at htidy ⊢
  exact holds_row hd hinsert (by decide) rfl rfl hmore htidy (.cons ⟨rfl, hsettings⟩ .nil)

/-- Rows in conflict are left alone, or something is assigned. -/
theorem exists_spells_conflictAction (last : String) :
    ∃ ls, Spells (d.conflictAction t).atoms ls ∧
      AreListsOf (namedLists (enclosures last [] ls))
        (if t.otherColumns = [] then [] else [(.settings, d.conflictItems t)]) := by
  unfold conflictAction
  simp only [List.isEmpty_map, List.isEmpty_iff]
  split
  · have hdo : Delimited (chars " DO ") [.word "DO"] := fun _ => rfl
    have hnothing : Spells (chars "NOTHING") [.word "NOTHING"] := .word rfl
    refine ⟨[.word "DO", .word "NOTHING"], ?_, .nil⟩
    rw [atoms_text]
    exact hdo.append_spells hnothing
  · have hset : Delimited (chars " DO UPDATE SET ") [.word "DO", .word "UPDATE", .word "SET"] :=
      fun _ => rfl
    have hsettings : IsListOf .settings (d.conflictItems t)
        ([.word "SET"] ++ [.sign ","].intercalate (d.conflictItems t)) :=
      isListOf_intercalate (fun _ h => isItem_of_mem_conflictItems h) (by decide)
    have hspells := hset.append_spells (spells_conflictItems hd (t := t))
    rw [← atoms_text, ← atoms_append] at hspells
    exact ⟨_, hspells, .cons ⟨rfl, hsettings⟩ .nil⟩

theorem holds_onConflict {values : List Value}
    (htidy : (d.insertAll t values ++ Sql.text " ON CONFLICT (" ++ d.names t.primaryKey ++
      Sql.text ")" ++ d.conflictAction t).Tidy) :
    (d.statement (d.insertAll t values ++ Sql.text " ON CONFLICT (" ++ d.names t.primaryKey ++
      Sql.text ")" ++ d.conflictAction t)).Holds
        (d.rowLists (t.columns.zip values) ++ (.keys, d.columnItems t.primaryKey) ::
          if t.otherColumns = [] then [] else [(.settings, d.conflictItems t)]) := by
  have hinsert : Delimited (chars "INSERT INTO ") [.word "INSERT", .word "INTO"] := fun _ => rfl
  have hon : Delimited (chars " ON ") [.word "ON"] := fun _ => rfl
  have hconflict : Spells (chars " ON CONFLICT") [.word "ON", .word "CONFLICT"] :=
    hon.append_spells (Spells.word (s := "CONFLICT") rfl)
  have hkeys := hconflict.enclose (hd.spells_names t.primaryKey)
  obtain ⟨ls, haction, hlists⟩ := exists_spells_conflictAction hd (t := t) "CONFLICT"
  have hmore : Spells (Sql.text " ON CONFLICT (" ++ d.names t.primaryKey ++ Sql.text ")" ++
      d.conflictAction t).atoms ([.word "ON", .word "CONFLICT"] ++
        ([.sign "("] ++ [.sign ","].intercalate (d.columnItems t.primaryKey) ++ [.sign ")"]) ++ ls) := by
    have hkeyword : chars " ON CONFLICT (" = chars " ON CONFLICT" ++ chars " (" := rfl
    simpa [hkeyword] using
      hkeys.append_spells haction
  have hword : IsKeyword [.word "ON", .word "CONFLICT"] := by decide
  have henclosed := hword.enclosures_enclosed (isBalanced_columnItems d t.primaryKey) "VALUES" ls
  have hkeyList : IsListOf .keys (d.columnItems t.primaryKey) _ :=
    isListOf_columnItems _ (by decide)
  have hbody : d.insertAll t values ++ Sql.text " ON CONFLICT (" ++ d.names t.primaryKey ++
      Sql.text ")" ++ d.conflictAction t = Sql.text "INSERT INTO " ++
        d.valuesClause t (t.columns.zip values) ++ (Sql.text " ON CONFLICT (" ++
          d.names t.primaryKey ++ Sql.text ")" ++ d.conflictAction t) := by
    simp only [insertAll, List.append_assoc]
  rw [hbody] at htidy ⊢
  refine holds_row hd hinsert (by decide) rfl rfl hmore htidy ?_
  rw [henclosed]
  exact .cons ⟨rfl, hkeyList⟩ hlists

theorem holds_keyed {values : List Value}
    (htidy : (Sql.text ("MERGE INTO " ++ d.tableName t ++ " (") ++ d.names (t.columns.map (·.name)) ++
      Sql.text ") KEY (" ++ d.names t.primaryKey ++ Sql.text ") VALUES (" ++
      Sql.commas (values.map Sql.param) ++ Sql.text ")").Tidy) :
    (d.statement (Sql.text ("MERGE INTO " ++ d.tableName t ++ " (") ++
      d.names (t.columns.map (·.name)) ++ Sql.text ") KEY (" ++ d.names t.primaryKey ++
      Sql.text ") VALUES (" ++ Sql.commas (values.map Sql.param) ++ Sql.text ")")).Holds
        [(.columns, d.columnItems (t.columns.map (·.name))), (.keys, d.columnItems t.primaryKey),
          (.values, valueItems values)] := by
  have hmerge : Delimited (chars "MERGE INTO ") [.word "MERGE", .word "INTO"] := fun _ => rfl
  have htable := hmerge.append_spells (hd.spells_tableName t)
  have hcolumns := Spells.enclose htable (hd.spells_names (t.columns.map (·.name)))
  have hkeys := (hcolumns.word (w := "KEY") rfl).enclose (hd.spells_names t.primaryKey)
  have hvalues := (hkeys.word (w := "VALUES") rfl).enclose (spells_valueItems values)
  have hkey : chars ") KEY (" = chars ")" ++ (chars (" " ++ "KEY") ++ chars " (") := rfl
  have hparams : chars ") VALUES (" = chars ")" ++ (chars (" " ++ "VALUES") ++ chars " (") := rfl
  have hinto : IsKeyword ([.word "MERGE", .word "INTO"] ++ (d.tablePath t).lexemes) :=
    IsKeyword.append (by decide) (isKeyword_tablePath d t)
  have hlast : lastWord "" ([.word "MERGE", .word "INTO"] ++ (d.tablePath t).lexemes) = "INTO" := by
    rw [lastWord_append]
    exact lastWord_tablePath d t "INTO"
  have hword (w : String) (h : w ∈ ["KEY", "VALUES"]) : IsKeyword [.word w] := by
    revert w
    decide
  have hfirst := hinto.enclosures_enclosed (isBalanced_columnItems d (t.columns.map (·.name))) ""
  have hsecond := (hword "KEY" (by decide)).enclosures_enclosed
    (isBalanced_columnItems d t.primaryKey) "INTO"
  have hthird := (hword "VALUES" (by decide)).enclosures_enclosed (isBalanced_valueItems values)
    (lastWord "INTO" [.word "KEY"]) []
  rw [hlast] at hfirst
  refine Statement.holds_of_encloses htidy ?_ hvalues.spells rfl ?_
  · simp [Dialect.statement, hkey, hparams]
  · simp only [List.append_assoc, List.append_nil] at hfirst hsecond hthird ⊢
    rw [hfirst, hsecond, hthird]
    have hcolumnList : IsListOf .columns (d.columnItems (t.columns.map (·.name))) _ :=
      isListOf_columnItems _ (by decide)
    have hkeyList : IsListOf .keys (d.columnItems t.primaryKey) _ :=
      isListOf_columnItems _ (by decide)
    exact .cons ⟨rfl, hcolumnList⟩ (.cons ⟨rfl, hkeyList⟩ (.cons ⟨rfl, isListOf_valueItems _⟩ .nil))

/-- A column and its value, as assigned or compared. -/
def cellLexemes (d : Dialect) (cell : Column × Value) : List Lexeme :=
  [.quoted d.identifierMark cell.1.name] ++ ([.sign "="] ++ [.param cell.2])

variable {Q : String → Prop}

theorem isPiece_assignment (name : String) (v : Value) : IsPiece Q (d.assignment name v).atoms
    ([.quoted d.identifierMark name] ++ ([.sign "="] ++ [.param v])) := by
  have hequals : Delimited (chars " = ") [.sign "="] := fun _ => rfl
  have hsign : IsBody Q [.sign "="] := .sign (by decide)
  have hbody : IsBody Q ([.sign "="] ++ [.param v]) := (isAdditive_isBody Q).append hsign (.param v)
  refine ⟨?_, (isAdditive_isBody Q).append (.quoted _ _) hbody⟩
  have hvalue := hequals.append_spells (Scanner.Delimited.param v).spells
  rw [assignment, atoms_append, atoms_text, chars_append, List.append_assoc]
  exact (hd.spells_quote name).append hvalue (by rintro _ ⟨⟩; rfl)

theorem exists_lays_keyCondition {values : List Value} {sql : Sql}
    (h : d.keyCondition t values = .ok sql) : ∃ ls, Lays Q sql.atoms [("WHERE", ls)] := by
  obtain ⟨tests, htests, h⟩ := Result.bind_eq_ok_iff.mp h
  obtain rfl := Except.ok.inj h
  have htest : ∀ test ∈ tests, IsPiece Q test.atoms test.lexemes := by
    intro test htest
    obtain ⟨key, -, hkey⟩ := Result.exists_of_mapM_eq_ok htests htest
    split at hkey
    · next v _ =>
      obtain rfl := Except.ok.inj hkey
      have hpiece := isPiece_assignment hd (Q := Q) key v
      rw [Sql.lexemes, hpiece.spells.read_eq]
      exact hpiece
    · cases hkey
  have hwhere : Delimited (chars " WHERE ") [.word "WHERE"] := fun _ => rfl
  refine ⟨[.word "AND"].intercalate (tests.map Sql.lexemes), ?_⟩
  rw [atoms_append, atoms_text]
  exact .word (by decide) hwhere rfl rfl (.conjunction htest)

omit hd in
/-- An update is refused if all columns belong to the key. -/
theorem cells_ne_nil_of_update {values : List Value} {s : Statement} (h : d.update t values = .ok s) :
    ((t.columns.zip values).filter fun (c, _) => !t.isPrimaryKey c.name) ≠ [] := by
  obtain ⟨_, -, h⟩ := Result.bind_eq_ok_iff.mp h
  obtain ⟨_, -, h⟩ := Result.bind_eq_ok_iff.mp h
  simp only at h
  split at h
  · cases h
  · next hcells => exact fun hnil => hcells (List.isEmpty_iff.mpr hnil)

theorem holds_update {values : List Value} {s : Statement} (horderly : d.Orderly)
    (h : d.update t values = .ok s) :
    s.Holds [(.settings, ((t.columns.zip values).filter fun (c, _) =>
      !t.isPrimaryKey c.name).map d.cellLexemes)] := by
  have htidy := horderly.update h
  obtain ⟨_, -, h⟩ := Result.bind_eq_ok_iff.mp h
  obtain ⟨_, -, h⟩ := Result.bind_eq_ok_iff.mp h
  simp only at h
  split at h
  · cases h
  · obtain ⟨condition, hcondition, h⟩ := Result.bind_eq_ok_iff.mp h
    obtain rfl := Except.ok.inj h
    obtain ⟨tests, hwhere⟩ := exists_lays_keyCondition hd (Q := fun _ => True) hcondition
    generalize ((t.columns.zip values).filter fun (c, _) => !t.isPrimaryKey c.name) = cells
      at htidy ⊢
    have hassignments : IsPiece (fun _ => True) (Sql.commas (cells.map fun (c, v) =>
        d.assignment c.name v)).atoms ([.sign ","].intercalate (cells.map d.cellLexemes)) :=
      .commas fun cell _ => isPiece_assignment hd cell.1.name cell.2
    refine Statement.holds_of_consists (consists_update hd hwhere hassignments htidy) ?_
    refine .cons ⟨rfl, isListOf_intercalate (fun a ha => ?_) List.mem_cons_self⟩ .nil
    obtain ⟨cell, -, rfl⟩ := List.mem_map.mp ha
    exact .setting (.plain _ _) (.param _)

theorem holds_delete {values : List Value} {s : Statement} (horderly : d.Orderly)
    (h : d.delete t values = .ok s) : s.Holds [] := by
  have htidy := horderly.delete h
  obtain ⟨_, -, h⟩ := Result.bind_eq_ok_iff.mp h
  obtain ⟨_, -, h⟩ := Result.bind_eq_ok_iff.mp h
  obtain ⟨condition, hcondition, h⟩ := Result.bind_eq_ok_iff.mp h
  obtain rfl := Except.ok.inj h
  obtain ⟨tests, hwhere⟩ := exists_lays_keyCondition hd (Q := fun _ => True) hcondition
  exact Statement.holds_of_consists (consists_delete hd hwhere htidy) .nil

/-- The lists of the statements of a merge. -/
def mergeLists (d : Dialect) (t : Table) (values : List Value) :
    List (List (Part × List (List Lexeme))) :=
  let row := d.rowLists (t.columns.zip values)
  let keys : Part × List (List Lexeme) := (.keys, d.columnItems t.primaryKey)
  match d.mergeForm with
  | .unsupported => []
  | .keyed =>
    [[(.columns, d.columnItems (t.columns.map (·.name))), keys, (.values, valueItems values)]]
  | .onDuplicateKey => [row ++ [(.settings, d.duplicateItems t)]]
  | .onConflict =>
    [row ++ keys :: if t.otherColumns = [] then [] else [(.settings, d.conflictItems t)]]
  | .orReplace => [row]
  | .deleteInsert => [[], row]

theorem holds_merge {values : List Value} {statements : List Statement} (horderly : d.Orderly)
    (h : d.merge t values = .ok statements) :
    List.Forall₂ Statement.Holds statements (d.mergeLists t values) := by
  have htidy := horderly.merge h
  have hsingle {body : Sql} {lists : List (Part × List (List Lexeme))}
      (hbody : body.Tidy → (d.statement body).Holds lists)
      (h : (t.checkArity values >>= fun _ => t.requirePrimaryKey "merge" >>= fun _ =>
        pure [d.statement body]) = .ok statements) :
      List.Forall₂ Statement.Holds statements [lists] := by
    obtain ⟨_, -, h⟩ := Result.bind_eq_ok_iff.mp h
    obtain ⟨_, -, h⟩ := Result.bind_eq_ok_iff.mp h
    obtain rfl := Except.ok.inj h
    exact .cons (hbody (htidy _ List.mem_cons_self)) .nil
  unfold Dialect.merge at h
  unfold mergeLists
  cases hform : d.mergeForm with
  | unsupported =>
    simp only [hform, ↓reduceIte] at h
    obtain ⟨_, -, h⟩ := Result.bind_eq_ok_iff.mp h
    cases h
  | keyed =>
    simp only [hform, reduceCtorEq, ↓reduceIte] at h
    exact hsingle (holds_keyed hd) h
  | onDuplicateKey =>
    simp only [hform, reduceCtorEq, ↓reduceIte] at h
    exact hsingle (holds_onDuplicateKey hd) h
  | onConflict =>
    simp only [hform, reduceCtorEq, ↓reduceIte] at h
    exact hsingle (holds_onConflict hd) h
  | orReplace =>
    simp only [hform, reduceCtorEq, ↓reduceIte] at h
    have hreplace : Delimited (chars "INSERT OR REPLACE INTO ")
        [.word "INSERT", .word "OR", .word "REPLACE", .word "INTO"] := fun _ => rfl
    exact hsingle (holds_bareRow hd hreplace (by decide) rfl rfl) h
  | deleteInsert =>
    simp only [hform, reduceCtorEq, ↓reduceIte] at h
    obtain ⟨_, -, h⟩ := Result.bind_eq_ok_iff.mp h
    obtain ⟨_, -, h⟩ := Result.bind_eq_ok_iff.mp h
    obtain ⟨deletion, hdeletion, h⟩ := Result.bind_eq_ok_iff.mp h
    obtain rfl := Except.ok.inj h
    have hinsert : Delimited (chars "INSERT INTO ") [.word "INSERT", .word "INTO"] := fun _ => rfl
    have hrow := htidy _ (List.mem_cons_of_mem _ List.mem_cons_self)
    exact .cons (holds_delete hd horderly hdeletion)
      (.cons (holds_bareRow hd hinsert (by decide) rfl rfl hrow) .nil)

omit hd in
theorem length_of_merge {values : List Value} {statements : List Statement}
    (h : d.merge t values = .ok statements) : values.length = t.columns.length := by
  obtain ⟨-, hform⟩ := key_of_merge h
  unfold Dialect.merge at h
  rw [if_neg hform] at h
  obtain ⟨_, hchecked, -⟩ := Result.bind_eq_ok_iff.mp h
  exact length_of_checkArity hchecked

omit hd in
/-- A merge needs a key and a value for each column, so no list is empty if there are columns. -/
theorem ne_nil_of_mem_mergeLists {values : List Value} {statements : List Statement}
    (hcolumns : t.columns ≠ []) (h : d.merge t values = .ok statements)
    {lists : List (Part × List (List Lexeme))} (hlists : lists ∈ d.mergeLists t values) :
    ∀ list ∈ lists, list.2 ≠ [] := by
  obtain ⟨hkey, -⟩ := key_of_merge h
  have hvalues : values ≠ [] := by
    rintro rfl
    exact hcolumns (List.length_eq_zero_iff.mp (length_of_merge h).symm)
  have hrow : ∀ list ∈ d.rowLists (t.columns.zip values), list.2 ≠ [] :=
    forall_rowLists_ne_nil_iff.mpr (by simp [List.zip_eq_nil_iff, hcolumns, hvalues])
  have hkeys : d.columnItems t.primaryKey ≠ [] := by simpa [columnItems] using hkey
  have hduplicate : d.duplicateItems t ≠ [] := by
    unfold duplicateItems
    split
    · exact List.cons_ne_nil _ _
    · next hothers => simpa using hothers
  have hconflict : ∀ list ∈ (if t.otherColumns = [] then [] else
      [((.settings, d.conflictItems t) : Part × List (List Lexeme))]), list.2 ≠ [] := by
    split
    · exact List.forall_mem_nil _
    · next hothers => simpa [conflictItems] using hothers
  unfold mergeLists at hlists
  dsimp only at hlists
  split at hlists
  · exact absurd hlists List.not_mem_nil
  · obtain rfl := List.mem_singleton.mp hlists
    simpa [columnItems, valueItems] using ⟨hcolumns, hkey, hvalues⟩
  · obtain rfl := List.mem_singleton.mp hlists
    exact List.forall_mem_append.mpr ⟨hrow, List.forall_mem_singleton.mpr hduplicate⟩
  · obtain rfl := List.mem_singleton.mp hlists
    exact List.forall_mem_append.mpr ⟨hrow, List.forall_mem_cons.mpr ⟨hkeys, hconflict⟩⟩
  · obtain rfl := List.mem_singleton.mp hlists
    exact hrow
  · rcases List.mem_cons.mp hlists with rfl | hlists
    · exact List.forall_mem_nil _
    · obtain rfl := List.mem_singleton.mp hlists
      exact hrow

end Rows

end Dialect

end RecordMapper
