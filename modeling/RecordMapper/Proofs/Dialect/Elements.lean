import RecordMapper.Proofs.Dialect.Listing
import RecordMapper.Proofs.Dialect.Phrase

/-!
# The lists of statements that define tables

A new table has a list of its columns, and of its key if no column holds it; an index has a list of
columns.
-/

set_option autoImplicit false

namespace RecordMapper

open Lexeme
open Sql (atoms_append atoms_text)
open Sql (chars chars_append)

namespace Dialect

/-- The items behind the name of a new table. -/
def elements (d : Dialect) (t : Table) : List (List Lexeme) :=
  (t.columns.map fun c => (Sql.text (d.columnDefinition t c)).lexemes) ++
    if t.hasPrimaryKey && !d.inlinePrimaryKey t then
      [[.word "PRIMARY", .word "KEY"] ++
        ([.sign "("] ++ [.sign ","].intercalate (d.columnItems t.primaryKey) ++ [.sign ")"])]
    else []

section Definitions
variable {d : Dialect} (hd : d.Delimits) {t : Table}
include hd

theorem isItem_of_mem_elements {a : List Lexeme} (hdefines : d.Defines) (h : a ∈ d.elements t) :
    IsItem .elements a := by
  rcases List.mem_append.mp h with h | h
  · obtain ⟨c, -, rfl⟩ := List.mem_map.mp h
    obtain ⟨words, hwords, hspells⟩ := phrases_columnDefinition hd hdefines t c
    rw [Sql.lexemes, atoms_text, hspells.read_eq]
    exact .definition _ _ hwords
  · split at h
    · next hkey =>
      obtain rfl := List.mem_singleton.mp h
      refine .key (fun hnil => ?_) fun a ha => isColumn_of_mem_columnItems ha
      rw [Table.hasPrimaryKey, List.map_eq_nil_iff.mp hnil] at hkey
      cases hkey
    · exact absurd h List.not_mem_nil

omit hd in
theorem intercalate_concat {xs : List (List Lexeme)} (hne : xs ≠ []) (separator y : List Lexeme) :
    separator.intercalate (xs ++ [y]) = separator.intercalate xs ++ (separator ++ y) := by
  induction xs using List.twoStepInduction with
  | nil => exact absurd rfl hne
  | singleton x => simp [List.intercalate_cons_cons, List.intercalate_singleton]
  | cons_cons x next others _ ih =>
    have hrest := ih next (List.cons_ne_nil _ _)
    rw [List.cons_append, List.cons_append, List.intercalate_cons_cons, ← List.cons_append, hrest,
      List.intercalate_cons_cons]
    simp only [List.append_assoc]

/-- What is enclosed behind the name of a new table. -/
theorem spells_elements (hdefines : d.Defines) (hcolumns : t.columns ≠ []) :
    Spells (Sql.commas (t.columns.map fun c => Sql.text (d.columnDefinition t c)) ++
      if t.hasPrimaryKey && !d.inlinePrimaryKey t then
        Sql.text ", PRIMARY KEY (" ++ d.names t.primaryKey ++ Sql.text ")"
      else []).atoms ([.sign ","].intercalate (d.elements t)) := by
  have hdefinitions : Spells (Sql.commas (t.columns.map fun c =>
      Sql.text (d.columnDefinition t c))).atoms ([.sign ","].intercalate
        (t.columns.map fun c => (Sql.text (d.columnDefinition t c)).lexemes)) := by
    refine .commas fun c _ => ?_
    obtain ⟨words, -, hspells⟩ := phrases_columnDefinition hd hdefines t c
    rw [Sql.lexemes, atoms_text, hspells.read_eq]
    exact hspells
  unfold elements
  split
  · have hprimary : Delimited (chars ", PRIMARY ") [.sign ",", .word "PRIMARY"] := fun _ => rfl
    have hkey : Spells (chars "KEY") [.word "KEY"] := .word rfl
    have hfollows := hprimary.follows rfl rfl hkey
    have hbefore := hdefinitions.append_follows hfollows
    have hall := Spells.enclose hbefore (hd.spells_names t.primaryKey)
    have hkeyword : chars ", PRIMARY KEY (" = chars ", PRIMARY " ++ (chars "KEY" ++ chars " (") := rfl
    have hne : (t.columns.map fun c => (Sql.text (d.columnDefinition t c)).lexemes) ≠ [] :=
      fun hnil => hcolumns (List.map_eq_nil_iff.mp hnil)
    rw [intercalate_concat hne]
    simpa [hkeyword] using hall.spells
  · rw [List.append_nil, List.append_nil]
    exact hdefinitions

/-- The words before the name of a new table. -/
def createKeyword (memory ifMissing : Bool) : List Lexeme :=
  [.word "CREATE"] ++ (if memory then [.word "MEMORY"] else []) ++ [.word "TABLE"] ++
    if ifMissing then [.word "IF", .word "NOT", .word "EXISTS"] else []

omit hd in
theorem delimited_createKeyword (memory ifMissing : Bool) :
    Delimited (chars ("CREATE " ++ (if memory then "MEMORY " else "") ++ "TABLE " ++
      if ifMissing then "IF NOT EXISTS " else "")) (createKeyword memory ifMissing) := by
  cases memory <;> cases ifMissing <;> exact fun _ => rfl

theorem holds_createTable (horderly : d.Orderly) (hdefines : d.Defines) (hcolumns : t.columns ≠ []) :
    (d.createTable t).Holds [(.elements, d.elements t)] := by
  have hkeyword : IsKeyword (createKeyword (t.memoryTable && d.memoryTables) d.ifNotExists) := by
    cases (t.memoryTable && d.memoryTables) <;> cases d.ifNotExists <;> decide
  have hlast : Part.ofWord? (lastWord "" (createKeyword (t.memoryTable && d.memoryTables)
      d.ifNotExists)) = some .elements := by
    cases (t.memoryTable && d.memoryTables) <;> cases d.ifNotExists <;> rfl
  have htable := (delimited_createKeyword (t.memoryTable && d.memoryTables)
    d.ifNotExists).append_spells (hd.spells_tableName t)
  have hall := Spells.enclose htable (spells_elements hd hdefines hcolumns)
  have hitems : ∀ a ∈ d.elements t, IsItem .elements a :=
    fun a ha => isItem_of_mem_elements hd hdefines ha
  have hbalanced := isBalanced_intercalate fun a ha => (hitems a ha).isClosed
  have henclosed := (hkeyword.append (isKeyword_tablePath d t)).enclosures_enclosed hbalanced "" []
  refine Statement.holds_of_encloses (horderly.createTable t) ?_ hall.spells rfl ?_
  · simp [createTable, Dialect.statement]
  · rw [List.append_nil, lastWord_append, lastWord_tablePath] at henclosed
    rw [henclosed, namedLists, List.filterMap_cons, hlast]
    exact .cons ⟨rfl, isListOf_intercalate hitems List.mem_cons_self⟩ .nil

/-- The clause that asks for hashing, if it is asked for. -/
def usingHash (hashes : Bool) : List Lexeme :=
  if hashes then [.word "USING", .word "HASH"] else []

omit hd in
theorem follows_usingHash (hashes : Bool) :
    Follows (Sql.text (if hashes then " USING HASH" else "")).atoms (usingHash hashes) := by
  cases hashes with
  | false => exact Scanner.Follows.nil
  | true =>
    have husing : Delimited (chars " USING ") [.word "USING"] := fun _ => rfl
    rw [atoms_text]
    exact husing.follows rfl rfl (Spells.word (s := "HASH") rfl)

/-- An index is created; the clause about hashing stands before its columns or behind them. -/
theorem holds_index {s : Statement} (htidy : s.body.Tidy) {lead : String} {ks : List Lexeme}
    (hlead : Delimited (chars lead) ks) (hkeyword : IsKeyword ks)
    (hencloses : enclosesLists ks = true) (name : String) (columns : List String)
    (before behind : Bool)
    (hbody : s.body.atoms = chars (lead ++ (d.quote name ++ " ON " ++ d.tableName t)) ++
      (Sql.text (if before then " USING HASH" else "")).atoms ++
        (Sql.text " (" ++ d.names columns ++ Sql.text ")").atoms ++
          (Sql.text (if behind then " USING HASH" else "")).atoms) :
    s.Holds [(.columns, d.columnItems columns)] := by
  have hon : Delimited (chars " ON ") [.word "ON"] := fun _ => rfl
  have hname := (hlead.append_spells (hd.spells_quote name)).append_delimited hon rfl rfl
  have htable := (hname.append_spells (hd.spells_tableName t)).append_follows
    (follows_usingHash before)
  have hall := (Spells.enclose htable (hd.spells_names columns)).append_spells
    (follows_usingHash behind).spells
  have hquoted : IsKeyword [.quoted d.identifierMark name] :=
    List.forall_mem_singleton.mpr ⟨⟨rfl, rfl⟩, rfl⟩
  have hword : IsKeyword [.word "ON"] := by decide
  have husing (hashes : Bool) : IsKeyword (usingHash hashes) := by cases hashes <;> decide
  have hplace := ((((hkeyword.append hquoted).append hword).append
    (isKeyword_tablePath d t)).append (husing before)).enclosures_enclosed
      (isBalanced_columnItems d columns) "" (usingHash behind)
  have hlast : Part.ofWord? (lastWord "" (ks ++ [.quoted d.identifierMark name] ++ [.word "ON"] ++
      (d.tablePath t).lexemes ++ usingHash before)) = some .columns := by
    rw [lastWord_append, lastWord_append, lastWord_append, lastWord_tablePath]
    cases before <;> rfl
  have hrest (last : String) : enclosures last [] (usingHash behind) = [] := by
    cases behind <;> rfl
  have hopens : enclosesLists (ks ++ [.quoted d.identifierMark name] ++ [.word "ON"] ++
      (d.tablePath t).lexemes ++ usingHash before ++ ([.sign "("] ++
        [.sign ","].intercalate (d.columnItems columns) ++ [.sign ")"]) ++ usingHash behind) = true := by
    cases ks with
    | nil => cases hencloses
    | cons first rest => exact hencloses
  have hcolumns : IsListOf .columns (d.columnItems columns) _ :=
    isListOf_columnItems columns (by decide)
  refine Statement.holds_of_encloses htidy ?_ hall hopens ?_
  · rw [hbody]
    simp
  · rw [hplace, namedLists, List.filterMap_cons, hlast, hrest]
    exact .cons ⟨rfl, hcolumns⟩ .nil

/-- The words before the name of a new index. -/
def indexKeyword (isUnique isHash ifMissing : Bool) : List Lexeme :=
  [.word "CREATE"] ++ (if isUnique then [.word "UNIQUE"] else []) ++
    (if isHash then [.word "HASH"] else []) ++ [.word "INDEX"] ++
      if ifMissing then [.word "IF", .word "NOT", .word "EXISTS"] else []

omit hd in
theorem isKeyword_indexKeyword (isUnique isHash ifMissing : Bool) :
    IsKeyword (indexKeyword isUnique isHash ifMissing) := by
  cases isUnique <;> cases isHash <;> cases ifMissing <;> decide

theorem holds_createIndex (horderly : d.Orderly) {i : Index} {s : Statement}
    (h : d.createIndex t i = .ok s) : s.Holds [(.columns, d.columnItems i.columns)] := by
  have htidy := horderly.createIndex h
  have hempty : chars "" = [] := rfl
  obtain ⟨kind, -, h⟩ := Result.bind_eq_ok_iff.mp h
  cases hform : d.indexForm with
  | leading =>
    rw [hform] at h
    obtain rfl := Except.ok.inj h
    have hlead : Delimited (chars ("CREATE " ++ (if kind.isUnique then "UNIQUE " else "") ++
        (if kind.isHash then "HASH " else "") ++ "INDEX " ++
          if d.ifNotExists then "IF NOT EXISTS " else ""))
        (indexKeyword kind.isUnique kind.isHash d.ifNotExists) := by
      cases kind.isUnique <;> cases kind.isHash <;> cases d.ifNotExists <;> exact fun _ => rfl
    refine holds_index hd (t := t) htidy hlead (isKeyword_indexKeyword _ _ _) rfl i.name i.columns false
      false ?_
    simp [Dialect.statement, hempty]
  | trailing =>
    rw [hform] at h
    obtain rfl := Except.ok.inj h
    have hlead : Delimited (chars ("CREATE " ++ (if kind.isUnique then "UNIQUE " else "") ++
        "INDEX ")) (indexKeyword kind.isUnique false false) := by
      cases kind.isUnique <;> exact fun _ => rfl
    refine holds_index hd (t := t) htidy hlead (isKeyword_indexKeyword _ _ _) rfl i.name i.columns false
      kind.isHash ?_
    simp [Dialect.statement, hempty]
  | method =>
    rw [hform] at h
    obtain rfl := Except.ok.inj h
    have hlead : Delimited (chars ("CREATE " ++ (if kind.isUnique then "UNIQUE " else "") ++
        "INDEX IF NOT EXISTS ")) (indexKeyword kind.isUnique false true) := by
      cases kind.isUnique <;> exact fun _ => rfl
    refine holds_index hd (t := t) htidy hlead (isKeyword_indexKeyword _ _ _) rfl i.name i.columns
      kind.isHash false ?_
    simp [Dialect.statement, hempty]

/-- The words before the name of a table that is dropped. -/
def dropKeyword (ifExists : Bool) : List Lexeme :=
  [.word "DROP", .word "TABLE"] ++ if ifExists then [.word "IF", .word "EXISTS"] else []

theorem holds_dropTable (horderly : d.Orderly) : (d.dropTable t).Holds [] := by
  have hkeyword : Delimited (chars ("DROP TABLE " ++ if d.ifNotExists then "IF EXISTS " else ""))
      (dropKeyword d.ifNotExists) := by
    cases d.ifNotExists <;> exact fun _ => rfl
  have hspells := hkeyword.append_spells (hd.spells_tableName t)
  rw [← chars_append, ← atoms_text] at hspells
  have hlexemes : (d.dropTable t).lexemes = dropKeyword d.ifNotExists ++ (d.tablePath t).lexemes :=
    (Sql.Tidy.lexemes_eq (horderly.dropTable t)).trans hspells.read_eq
  have hsections : (d.dropTable t).sections = [] := by
    have hword : ∀ x ∈ dropKeyword d.ifNotExists, x.beginsSection = false := by
      cases d.ifNotExists <;> decide
    have hall := sections_append (List.forall_mem_append.mpr
      ⟨hword, (isBody_tablePath (Q := fun _ => True) d t).goesOn⟩) []
    rwa [List.append_nil, ← hlexemes] at hall
  have hencloses : enclosesLists (d.dropTable t).lexemes = false := by
    rw [hlexemes]
    rfl
  rw [Statement.Holds, Statement.lists, hencloses, if_neg Bool.false_ne_true, hsections]
  exact .nil

end Definitions

end Dialect

end RecordMapper
