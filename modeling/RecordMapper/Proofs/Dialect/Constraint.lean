import Mathlib.Data.List.Nodup
import RecordMapper.Proofs.Dialect.Elements
import RecordMapper.Proofs.Dialect.Generated
import RecordMapper.Proofs.Dialect.Identifier

/-!
# What a new table declares

The body of a statement that creates a table is read element by element: a column by its name and by
what is said behind it of nulls and of the key, and a key by the names of its columns. Each column of
a sealed table is declared once, in order, and cannot be null exactly if the table says so.

The key is declared once. Either one element lists its columns, or, in SQLite, the single column of
the key declares it itself and nothing else does: the same column decides whether the key is declared
there and whether the list is left out.
-/

set_option autoImplicit false

namespace RecordMapper

open Lexeme

/-- A column, and how often it is said that it cannot be null and that it is the key. -/
structure ColumnDeclaration where
  name : String
  notNulls : Nat
  keys : Nat
deriving DecidableEq

/-- What stands between the commas of a new table. -/
inductive TableElement
  | column (c : ColumnDeclaration)
  | key (names : List String)
deriving DecidableEq

namespace Lexeme

/-- How often the two words stand next to each other. -/
def countWords (first second : String) : List Lexeme → Nat
  | x :: y :: rest =>
    (x.isWord first && y.isWord second).toNat + countWords first second (y :: rest)
  | _ => 0

/-- Names with commas between them, up to a closing parenthesis behind which nothing stands. -/
def listed? (quote : Char) : List Lexeme → Option (List String)
  | [.quoted q name, .sign ")"] => if q = quote then some [name] else none
  | .quoted q name :: .sign "," :: rest =>
    if q = quote then (listed? quote rest).map (name :: ·) else none
  | _ => none

def element? (quote : Char) : List Lexeme → Option TableElement
  | .quoted q name :: words =>
    if q = quote then
      some (.column ⟨name, countWords "NOT" "NULL" words, countWords "PRIMARY" "KEY" words⟩)
    else none
  | .word "PRIMARY" :: .word "KEY" :: .sign "(" :: rest => (listed? quote rest).map .key
  | _ => none

end Lexeme

/-- The elements of the table that the statement creates. -/
def Statement.elements? (quote : Char) (s : Statement) : Option (List TableElement) :=
  match s.lists with
  | [(.elements, a)] => (items a).mapM (element? quote)
  | _ => none

namespace Lexeme
variable {first second : String} {a : List Lexeme}

/-- Where the first word is missing, the two are not said. -/
theorem countWords_append (h : ∀ x ∈ a, x.isWord first = false) (b : List Lexeme) :
    countWords first second (a ++ b) = countWords first second b := by
  induction a with
  | nil => rfl
  | cons x a ih =>
    obtain ⟨hx, ha⟩ := List.forall_mem_cons.mp h
    rw [← ih ha, List.cons_append]
    cases a ++ b with
    | nil => rfl
    | cons y rest => rw [countWords, hx, Bool.false_and, Bool.toNat_false, Nat.zero_add]

theorem listed?_intercalate (quote : Char) {names : List String} (hne : names ≠ []) :
    listed? quote ([.sign ","].intercalate (names.map fun name => [.quoted quote name]) ++
      [.sign ")"]) = some names := by
  induction names using List.twoStepInduction with
  | nil => exact absurd rfl hne
  | singleton name =>
    rw [List.map_singleton, List.intercalate_singleton]
    exact if_pos rfl
  | cons_cons name next others _ ih =>
    have hrest := ih next (List.cons_ne_nil _ _)
    rw [List.map_cons] at hrest
    rw [List.map_cons, List.map_cons, List.intercalate_cons_cons]
    simp only [List.cons_append, List.nil_append, listed?, ↓reduceIte, hrest]
    rfl

end Lexeme

theorem mapM_eq_some_map {α β : Type} {f : α → Option β} {g : α → β} {xs : List α}
    (h : ∀ x ∈ xs, f x = some (g x)) : xs.mapM f = some (xs.map g) := by
  induction xs with
  | nil => rfl
  | cons x xs ih =>
    obtain ⟨hx, hxs⟩ := List.forall_mem_cons.mp h
    rw [List.mapM_cons, hx, ih hxs]
    rfl

theorem sum_map_toNat {α : Type} (p : α → Bool) (xs : List α) :
    (xs.map fun x => (p x).toNat).sum = xs.countP p := by
  induction xs with
  | nil => rfl
  | cons x xs ih =>
    rw [List.map_cons, List.sum_cons, ih, List.countP_cons, Nat.add_comm]
    cases p x <;> rfl

namespace Dialect
variable {d : Dialect}

section Columns
variable {t : Table}

/-- The key is declared with the column. -/
def declaresKeyWith (d : Dialect) (t : Table) (c : Column) : Bool :=
  (d.inlineKeyColumn? t).any (·.name = c.name)

def columnDeclaration (d : Dialect) (t : Table) (c : Column) : ColumnDeclaration where
  name := c.name
  notNulls := (!c.nullable && !d.declaresKeyWith t c).toNat
  keys := (d.declaresKeyWith t c).toNat

theorem element?_columnDefinition (hd : d.Delimits) (hdefines : d.Defines) (c : Column) :
    element? d.identifierMark (Sql.text (d.columnDefinition t c)).lexemes =
      some (.column (d.columnDeclaration t c)) := by
  obtain ⟨description, hdescription, hspells⟩ := exists_spells_columnDefinition hd hdefines t c
  have hsilent (w : String) (hw : w ∈ constraintWords) : ∀ x ∈ description, x.isWord w = false :=
    fun x hx => hdescription.unconstrained x hx w hw
  rw [Sql.lexemes, Sql.atoms_text, hspells.read_eq, List.singleton_append]
  rw [element?, if_pos rfl, columnDeclaration, definitionLexemes, ← declaresKeyWith]
  cases d.declaresKeyWith t c with
  | true =>
    have hkey : countWords "NOT" "NULL" [.word "INTEGER", .word "PRIMARY", .word "KEY",
        .word "AUTOINCREMENT"] = 0 ∧ countWords "PRIMARY" "KEY" [.word "INTEGER",
        .word "PRIMARY", .word "KEY", .word "AUTOINCREMENT"] = 1 := by decide
    rw [if_pos rfl, hkey.1, hkey.2, Bool.not_true, Bool.and_false]
    rfl
  | false =>
    rw [if_neg Bool.false_ne_true, countWords_append (hsilent "NOT" (by decide)),
      countWords_append (hsilent "PRIMARY" (by decide)), Bool.not_false, Bool.and_true]
    cases c.nullable with
    | true => rfl
    | false =>
      have hnotNull : countWords "NOT" "NULL" [.word "NOT", .word "NULL"] = 1 ∧
          countWords "PRIMARY" "KEY" [.word "NOT", .word "NULL"] = 0 := by decide
      rw [if_neg Bool.false_ne_true, hnotNull.1, hnotNull.2]
      rfl

/-- The lists of key columns behind the columns. -/
def listedKeys (d : Dialect) (t : Table) : List (List String) :=
  if t.hasPrimaryKey && !d.inlinePrimaryKey t then [t.primaryKey] else []

theorem element?_key {names : List String} (hne : names ≠ []) :
    element? d.identifierMark ([.word "PRIMARY", .word "KEY"] ++
      ([.sign "("] ++ [.sign ","].intercalate (d.columnItems names) ++ [.sign ")"])) =
        some (.key names) := by
  change Option.map TableElement.key (listed? d.identifierMark
    ([.sign ","].intercalate (d.columnItems names) ++ [.sign ")"])) = _
  rw [columnItems, listed?_intercalate _ hne]
  rfl

theorem mapM_elements (hd : d.Delimits) (hdefines : d.Defines) :
    (d.elements t).mapM (element? d.identifierMark) =
      some ((t.columns.map (d.columnDeclaration t)).map .column ++ (d.listedKeys t).map .key) := by
  have hcolumns : (t.columns.map fun c => (Sql.text (d.columnDefinition t c)).lexemes).mapM
      (element? d.identifierMark) =
        some ((t.columns.map (d.columnDeclaration t)).map .column) := by
    rw [List.mapM_map, List.map_map]
    exact mapM_eq_some_map fun c _ => element?_columnDefinition hd hdefines c
  rw [elements, listedKeys, List.mapM_append, hcolumns]
  split
  · next hkey =>
    have hne : t.primaryKey ≠ [] := by
      intro hnil
      rw [Table.hasPrimaryKey, hnil] at hkey
      cases hkey
    rw [List.mapM_cons, element?_key hne]
    rfl
  · rfl

theorem elements?_createTable (hd : d.Delimits) (horderly : d.Orderly) (hdefines : d.Defines)
    (hcolumns : t.columns ≠ []) : (d.createTable t).elements? d.identifierMark =
      some ((t.columns.map (d.columnDeclaration t)).map .column ++ (d.listedKeys t).map .key) := by
  have helements : d.elements t ≠ [] := by
    intro hnil
    rw [elements, List.append_eq_nil_iff, List.map_eq_nil_iff] at hnil
    exact hcolumns hnil.1
  have hholds := holds_createTable hd (t := t) horderly hdefines hcolumns
  unfold Statement.Holds AreListsOf at hholds
  obtain ⟨⟨part, a⟩, rest, ⟨rfl, hlist⟩, hrest, hfound⟩ := List.forall₂_cons_right_iff.mp hholds
  obtain rfl := List.forall₂_nil_right_iff.mp hrest
  rw [Statement.elements?, hfound]
  simp only
  rw [hlist.items_eq, if_neg helements, mapM_elements hd hdefines]

end Columns

section Keys
variable {m : Mapping} (hm : m.Consistent)
include hm

theorem toNat_declaresKeyWith {c : Column} (hc : c ∈ m.table.columns) :
    (d.declaresKeyWith m.table c).toNat =
      if d.inlineKey = true ∧ c.autoIncrement = true ∧ m.table.primaryKey = [c.name] then 1
      else 0 := by
  have hinline := any_inlineKeyColumn?_iff (d := d) hm hc
  rw [← declaresKeyWith] at hinline
  split
  · next h => rw [hinline.mpr ⟨h.1, h.2.2, h.2.1⟩, Bool.toNat_true]
  · next h =>
    rw [Bool.toNat_eq_zero, Bool.eq_false_iff]
    exact fun hkey => h ⟨(hinline.mp hkey).1, (hinline.mp hkey).2.2, (hinline.mp hkey).2.1⟩

/-- A column of the key cannot be null, so one that declares the key need not say so. -/
theorem notNulls_add_keys {c : Column} (hc : c ∈ m.table.columns) :
    (d.columnDeclaration m.table c).notNulls + (d.columnDeclaration m.table c).keys =
      if c.nullable then 0 else 1 := by
  cases hkey : d.declaresKeyWith m.table c with
  | false => cases hnullable : c.nullable <;> simp [columnDeclaration, hkey, hnullable]
  | true =>
    obtain ⟨-, hname, -⟩ := (any_inlineKeyColumn?_iff hm hc).mp hkey
    have hflag := (hm.flagged c hc).mpr (hname ▸ List.mem_cons_self)
    simp [columnDeclaration, hkey, hm.notNull c hc hflag]

theorem sum_declaresKeyWith :
    (m.table.columns.map fun c => (d.declaresKeyWith m.table c).toNat).sum =
      (d.inlinePrimaryKey m.table).toNat := by
  rw [sum_map_toNat, inlinePrimaryKey]
  cases hinline : d.inlineKeyColumn? m.table with
  | none =>
    refine List.countP_eq_zero.mpr fun c _ => ?_
    rw [declaresKeyWith, hinline]
    exact Bool.false_ne_true
  | some c =>
    obtain ⟨-, hc, -⟩ := (inlineKeyColumn?_eq_some_iff hm).mp hinline
    -- the column is looked for by its name, which only one column has
    have hcount : m.table.columns.countP (d.declaresKeyWith m.table) =
        m.table.names.count c.name := by
      rw [Table.names, List.count, List.countP_map]
      refine List.countP_congr fun c' _ => ?_
      rw [declaresKeyWith, hinline, Option.any_some, Function.comp_apply, beq_iff_eq,
        decide_eq_true_iff]
      exact eq_comm
    rw [hcount]
    exact List.count_eq_one_of_mem hm.distinct.nodup (List.mem_map_of_mem hc)

theorem sum_keys_add_length_listedKeys :
    ((m.table.columns.map (d.columnDeclaration m.table)).map (·.keys)).sum +
      (d.listedKeys m.table).length = if m.table.primaryKey = [] then 0 else 1 := by
  have hsum := sum_declaresKeyWith (d := d) hm
  rw [List.map_map]
  change (m.table.columns.map fun c => (d.declaresKeyWith m.table c).toNat).sum + _ = _
  rw [hsum, listedKeys, Table.hasPrimaryKey]
  cases hkey : m.table.primaryKey with
  | nil =>
    have hnone : d.inlinePrimaryKey m.table = false := by
      rw [inlinePrimaryKey, inlineKeyColumn?, hkey]
      split
      · next h => cases h
      · rfl
    rw [hnone]
    rfl
  | cons key rest => cases d.inlinePrimaryKey m.table <;> rfl

end Keys

theorem inlineKey_ofProduct (p : Product) (version : ProductVersion) :
    (ofProduct p version).inlineKey = true ↔ p = .sqlite := by
  cases p with
  | sqlite => exact iff_of_true rfl rfl
  | generic | h2 | mySql | postgreSql | derby => exact iff_of_false Bool.false_ne_true nofun

end Dialect

/-- What the elements of a new table say of its columns and of its key. -/
structure Product.Declares (p : Product) (t : Table) (columns : List ColumnDeclaration)
    (keys : List (List String)) : Prop where
  distinct : DistinctNames t.names
  names : columns.map (·.name) = t.names
  constrained : (columns.map fun c => c.notNulls + c.keys) =
    t.columns.map fun c => if c.nullable then 0 else 1
  inlined : columns.map (·.keys) = t.columns.map fun c =>
    if p = .sqlite ∧ c.autoIncrement = true ∧ t.primaryKey = [c.name] then 1 else 0
  listed : ∀ key ∈ keys, key = t.primaryKey
  once : (columns.map (·.keys)).sum + keys.length = if t.primaryKey = [] then 0 else 1

namespace Dialect

/-- A new table declares each of its columns once, in order, and its key once if it has one. -/
theorem declared_once (p : Product) (version : ProductVersion) {m : Mapping} (h : m.IsSealed) :
    ∃ (columns : List ColumnDeclaration) (keys : List (List String)),
      ((ofProduct p version).createTable m.table).elements? p.identifierDelimiter =
        some (columns.map .column ++ keys.map .key) ∧ p.Declares m.table columns keys := by
  have hm := h.consistent
  have hread := elements?_createTable (delimits_ofProduct p version) (orderly_ofProduct p version)
    (defines_ofProduct p version) hm.nonempty
  rw [identifierMark_ofProduct] at hread
  refine ⟨_, _, hread, hm.distinct, ?_, ?_, ?_, ?_, sum_keys_add_length_listedKeys hm⟩
  · rw [List.map_map]
    rfl
  · rw [List.map_map]
    exact List.map_congr_left fun c hc => notNulls_add_keys hm hc
  · rw [List.map_map]
    refine List.map_congr_left fun c hc => ?_
    have hkeys := toNat_declaresKeyWith (d := ofProduct p version) hm hc
    simp only [inlineKey_ofProduct] at hkeys
    exact hkeys
  · intro key hkey
    unfold listedKeys at hkey
    split at hkey
    · exact List.mem_singleton.mp hkey
    · exact absurd hkey List.not_mem_nil

def entryNote : FieldMapping := { orderNote with column.nullable := true }

/-- The key is one generated column; the other column may be null. -/
def entryMapping : Mapping where
  table :=
    { name := "entries", columns := [(keyField "id" true).column, entryNote.column],
      primaryKey := ["id"] }
  fields := [keyField "id" true, entryNote]

theorem isSealed_entryMapping : entryMapping.IsSealed := ⟨entryMapping, "entries", rfl⟩

theorem entry_declared_once :
    entryMapping.IsSealed ∧ ∃ columns keys,
      ((ofProduct .sqlite .zero).createTable entryMapping.table).elements?
        Product.sqlite.identifierDelimiter = some (columns.map .column ++ keys.map .key) ∧
      Product.sqlite.Declares entryMapping.table columns keys ∧
      columns.map (·.keys) = [1, 0] ∧ keys = [] := by
  obtain ⟨columns, keys, hread, hdeclares⟩ := declared_once .sqlite .zero isSealed_entryMapping
  have hinlined : columns.map (·.keys) = [1, 0] := hdeclares.inlined.trans (by decide)
  have honce := hdeclares.once
  rw [hinlined] at honce
  have hlength : keys.length = 0 := Nat.add_left_cancel honce
  exact ⟨isSealed_entryMapping, columns, keys, hread, hdeclares, hinlined,
    List.length_eq_zero_iff.mp hlength⟩

example : ((ofProduct .sqlite .zero).createTable lineMapping.table).elements?
    Product.sqlite.identifierDelimiter =
      some [.column ⟨"order_id", 1, 0⟩, .column ⟨"line_no", 1, 0⟩, .key ["order_id", "line_no"]] := by
  decide +kernel

end Dialect

end RecordMapper
