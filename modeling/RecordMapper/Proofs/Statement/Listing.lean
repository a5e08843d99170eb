import Mathlib.Data.List.Forall2
import RecordMapper.Proofs.Statement.Section

/-!
# The lists of a statement

A list is found by the words before it. In statements that create and insert, lists stand in
parentheses, and what is assigned stands behind `UPDATE`; in all others each list is a section of
its own. A list is cut at the commas outside its brackets. So a comma that comes first, comes last
or follows another one leaves an empty item, and an empty list is one empty item; none of these is
an item of any list.
-/

set_option autoImplicit false

namespace RecordMapper

/-- The lists of statements. -/
inductive Part
  | selection
  | columns
  | values
  | settings
  | keys
  | grouping
  | ordering
  /-- The columns of a new table, and its key. -/
  | elements
deriving DecidableEq

namespace Part

/-- The list that is the section behind the word. -/
def ofSection? : String → Option Part
  | "SELECT" => some selection
  | "SET" => some settings
  | "GROUP" => some grouping
  | "ORDER" => some ordering
  | _ => none

/-- The list that is enclosed behind the word. -/
def ofWord? : String → Option Part
  | "TABLE" | "EXISTS" => some elements
  | "INTO" | "ON" | "HASH" => some columns
  | "VALUES" => some values
  | "KEY" | "CONFLICT" => some keys
  | "UPDATE" => some settings
  | _ => none

end Part

namespace Lexeme

def isComma (x : Lexeme) : Bool := x = .sign ","

/-- A column, perhaps behind the name of its table. -/
inductive IsColumn : List Lexeme → Prop
  | plain (quote : Char) (name : String) : IsColumn [.quoted quote name]
  | qualified (table : String) (quote : Char) (name : String) :
      IsColumn [.word table, .sign ".", .quoted quote name]

/-- What is assigned to a column: a value, that of another column, or the one to be inserted. -/
inductive IsAssigned : List Lexeme → Prop
  | param (v : Value) : IsAssigned [.param v]
  | column {a : List Lexeme} (h : IsColumn a) : IsAssigned a
  | inserted {a : List Lexeme} (h : IsColumn a) :
      IsAssigned ([.word "VALUES"] ++ ([.sign "("] ++ a ++ [.sign ")"]))

/-- Words and numbers without a name among them, and without a comma outside brackets. -/
structure IsPhrase (a : List Lexeme) : Prop where
  closed : IsClosed .round isComma a
  unquoted : ∀ quote name, .quoted quote name ∉ a

/-- The items that a list may have. -/
inductive IsItem : Part → List Lexeme → Prop
  | column {part : Part} {a : List Lexeme}
      (hpart : part ∈ [.selection, .columns, .keys, .grouping, .ordering]) (h : IsColumn a) :
      IsItem part a
  | count : IsItem .selection ([.word "COUNT"] ++ ([.sign "("] ++ [.sign "*"] ++ [.sign ")"]))
  | descending {a : List Lexeme} (h : IsColumn a) : IsItem .ordering (a ++ [.word "DESC"])
  | param (v : Value) : IsItem .values [.param v]
  | setting {a b : List Lexeme} (ha : IsColumn a) (hb : IsAssigned b) :
      IsItem .settings (a ++ ([.sign "="] ++ b))
  | definition (quote : Char) (name : String) {words : List Lexeme} (h : IsPhrase words) :
      IsItem .elements ([.quoted quote name] ++ words)
  | key {columns : List (List Lexeme)} (hne : columns ≠ []) (h : ∀ a ∈ columns, IsColumn a) :
      IsItem .elements ([.word "PRIMARY", .word "KEY"] ++
        ([.sign "("] ++ [.sign ","].intercalate columns ++ [.sign ")"]))

theorem isAdditive_isPhrase : IsAdditive IsPhrase where
  nil := ⟨.nil, fun _ _ => List.not_mem_nil⟩
  append ha hb := by
    refine ⟨ha.closed.append hb.closed, fun quote name hmem => ?_⟩
    rcases List.mem_append.mp hmem with hmem | hmem
    · exact ha.unquoted quote name hmem
    · exact hb.unquoted quote name hmem

section Items
variable {part : Part} {a b : List Lexeme}

theorem isPair_parentheses : IsPair .round (.sign "(") (.sign ")") := ⟨rfl, rfl, rfl⟩

theorem isClosed_word (s : String) : IsClosed .round isComma [.word s] := .singleton ⟨rfl, rfl⟩ rfl

theorem IsColumn.isClosed (h : IsColumn a) : IsClosed .round isComma a := by
  refine .of_forall fun x hx => ?_
  cases h with
  | plain quote name =>
    obtain rfl := List.mem_singleton.mp hx
    exact ⟨⟨rfl, rfl⟩, rfl⟩
  | qualified table quote name =>
    simp only [List.mem_cons, List.not_mem_nil, or_false] at hx
    rcases hx with rfl | rfl | rfl <;> exact ⟨⟨rfl, rfl⟩, rfl⟩

theorem isBalanced_intercalate {xs : List (List Lexeme)} (h : ∀ x ∈ xs, IsClosed .round isComma x) :
    IsBalanced .round ([.sign ","].intercalate xs) := by
  have hadditive : IsAdditive (IsBalanced .round) := ⟨.nil, .append⟩
  exact hadditive.intercalate (.singleton ⟨rfl, rfl⟩) fun x hx => (h x hx).isBalanced

theorem IsAssigned.isClosed (h : IsAssigned a) : IsClosed .round isComma a := by
  cases h with
  | param v => exact .singleton ⟨rfl, rfl⟩ rfl
  | column h => exact h.isClosed
  | inserted h => exact (isClosed_word "VALUES").append (.enclosed isPair_parentheses h.isClosed.isBalanced)

/-- The commas in an item stand in brackets. -/
theorem IsItem.isClosed (h : IsItem part a) : IsClosed .round isComma a := by
  cases h with
  | column _ h => exact h.isClosed
  | count =>
    have hstar : IsBalanced .round [.sign "*"] := .singleton ⟨rfl, rfl⟩
    exact (isClosed_word "COUNT").append (.enclosed isPair_parentheses hstar)
  | descending h => exact h.isClosed.append (isClosed_word "DESC")
  | param v => exact .singleton ⟨rfl, rfl⟩ rfl
  | setting ha hb =>
    have hequals : IsClosed .round isComma [.sign "="] := .singleton ⟨rfl, rfl⟩ rfl
    exact ha.isClosed.append (hequals.append hb.isClosed)
  | definition quote name h =>
    have hname : IsClosed .round isComma [.quoted quote name] := .singleton ⟨rfl, rfl⟩ rfl
    exact hname.append h.closed
  | key hne h =>
    have hwords : IsClosed .round isComma [.word "PRIMARY", .word "KEY"] :=
      (isClosed_word "PRIMARY").append (isClosed_word "KEY")
    have hcolumns := isBalanced_intercalate fun a ha => (h a ha).isClosed
    exact hwords.append (.enclosed isPair_parentheses hcolumns)

/-- The list without the second word of its keyword. -/
def withoutFiller : List Lexeme → List Lexeme
  | .word s :: rest =>
    if Text.upper s ∈ ["DISTINCT", "BY", "SET"] ∧ rest.head? ≠ some (.sign ".") then rest
    else .word s :: rest
  | a => a

/-- What stands between the commas of a list. -/
def items (a : List Lexeme) : List (List Lexeme) := pieces .round isComma [] (withoutFiller a)

/-- The beginning of an item is not taken for a part of the keyword. -/
structure IsBegun (a : List Lexeme) : Prop where
  kept : ∀ b, withoutFiller (a ++ b) = a ++ b
  ne_nil : a ≠ []
  head : a.head? ≠ some (.sign ".")

theorem IsBegun.append (h : IsBegun a) (b : List Lexeme) : IsBegun (a ++ b) := by
  refine ⟨fun c => ?_, fun hnil => h.ne_nil (List.append_eq_nil_iff.mp hnil).1, ?_⟩
  · rw [List.append_assoc]
    exact h.kept (b ++ c)
  · obtain ⟨x, rest, rfl⟩ := List.exists_cons_of_ne_nil h.ne_nil
    exact h.head

theorem IsBegun.word {s : String} (h : Text.upper s ∉ ["DISTINCT", "BY", "SET"]) :
    IsBegun [.word s] := by
  refine ⟨fun b => ?_, List.cons_ne_nil _ _, by simp⟩
  rw [List.singleton_append, withoutFiller, if_neg fun hfiller => h hfiller.1]

theorem IsColumn.isBegun (h : IsColumn a) : IsBegun a := by
  cases h with
  | plain quote name => exact ⟨fun _ => rfl, List.cons_ne_nil _ _, by simp⟩
  | qualified table quote name =>
    exact ⟨fun b => by simp [withoutFiller], List.cons_ne_nil _ _, by simp⟩

theorem IsItem.isBegun (h : IsItem part a) : IsBegun a := by
  cases h with
  | column _ h => exact h.isBegun
  | count => exact (IsBegun.word (by decide)).append _
  | descending h => exact h.isBegun.append _
  | param v => exact ⟨fun _ => rfl, List.cons_ne_nil _ _, by simp⟩
  | setting ha hb => exact ha.isBegun.append _
  | definition quote name h => exact (IsColumn.plain quote name).isBegun.append _
  | key hne h => exact ((IsBegun.word (by decide)).append [.word "KEY"]).append _

/-- The list holds these items, if it holds any: they are found again, and otherwise one empty
piece is found. -/
structure IsListOf (part : Part) (xs : List (List Lexeme)) (a : List Lexeme) : Prop where
  isItem : ∀ x ∈ xs, IsItem part x
  items_eq : items a = if xs = [] then [[]] else xs

theorem isBegun_intercalate {xs : List (List Lexeme)} (hne : xs ≠ [])
    (h : ∀ x ∈ xs, IsItem part x) : IsBegun ([.sign ","].intercalate xs) := by
  obtain ⟨x, rest, rfl⟩ := List.exists_cons_of_ne_nil hne
  have hx := (h x List.mem_cons_self).isBegun
  cases rest with
  | nil =>
    rw [List.intercalate_singleton]
    exact hx
  | cons y rest =>
    rw [List.intercalate_cons_cons]
    exact (hx.append _).append _

/-- What may stand before the first item. -/
def fillers : List (List Lexeme) := [[], [.word "DISTINCT"], [.word "BY"], [.word "SET"]]

theorem withoutFiller_intercalate {xs : List (List Lexeme)} (h : ∀ x ∈ xs, IsItem part x)
    {filler : List Lexeme} (hfiller : filler ∈ fillers) :
    withoutFiller (filler ++ [.sign ","].intercalate xs) = [.sign ","].intercalate xs := by
  have hhead : ([.sign ","].intercalate xs).head? ≠ some (.sign ".") := by
    by_cases hnil : xs = []
    · subst hnil
      exact nofun
    · exact (isBegun_intercalate hnil h).head
  have hword {s : String} (hs : Text.upper s ∈ ["DISTINCT", "BY", "SET"]) :
      withoutFiller ([.word s] ++ [.sign ","].intercalate xs) = [.sign ","].intercalate xs := by
    rw [List.singleton_append, withoutFiller, if_pos ⟨hs, hhead⟩]
  simp only [fillers, List.mem_cons, List.not_mem_nil, or_false] at hfiller
  rcases hfiller with rfl | rfl | rfl | rfl
  · by_cases hnil : xs = []
    · subst hnil
      rfl
    · have hkept := (isBegun_intercalate hnil h).kept []
      rwa [List.append_nil] at hkept
  · exact hword (by decide)
  · exact hword (by decide)
  · exact hword (by decide)

theorem isListOf_intercalate {xs : List (List Lexeme)} (h : ∀ x ∈ xs, IsItem part x)
    {filler : List Lexeme} (hfiller : filler ∈ fillers) :
    IsListOf part xs (filler ++ [.sign ","].intercalate xs) := by
  refine ⟨h, ?_⟩
  rw [items, withoutFiller_intercalate h hfiller]
  split
  · next hnil =>
    subst hnil
    rfl
  · next hne => exact pieces_intercalate hne (fun x hx => (h x hx).isClosed) ⟨rfl, rfl⟩ rfl

/-- A list is made of items exactly if it has any. -/
theorem IsListOf.forall_isItem_iff {xs : List (List Lexeme)} (h : IsListOf part xs a) :
    (∀ item ∈ items a, IsItem part item) ↔ xs ≠ [] := by
  rw [h.items_eq]
  constructor
  · rintro hall rfl
    exact (hall [] List.mem_cons_self).isBegun.ne_nil rfl
  · intro hne
    rw [if_neg hne]
    exact h.isItem

end Items

/-- What stands in the outermost parentheses, and what stands behind `UPDATE` outside of them, each
with the last word before it. -/
def enclosures : String → List Lexeme → List Lexeme → List (String × List Lexeme)
  | last, awaited, [] => if awaited = [] then [] else [(last, [])]
  | last, awaited, x :: rest =>
    let next := (x.await? .round awaited).getD awaited
    if awaited = [] then
      if x.isWord "UPDATE" then [("UPDATE", rest)]
      else enclosures (x.word?.getD last) next rest
    else if next = [] then (last, []) :: enclosures last [] rest
    else (enclosures last next rest).modifyHead fun e => (e.1, x :: e.2)

def lastWord (last : String) (a : List Lexeme) : String :=
  a.foldl (fun last x => x.word?.getD last) last

/-- Nothing is enclosed in it, and nothing begins behind it. -/
def IsKeyword (a : List Lexeme) : Prop := ∀ x ∈ a, x.IsPlain .round ∧ x.isWord "UPDATE" = false

instance (a : List Lexeme) : Decidable (IsKeyword a) := inferInstanceAs (Decidable (∀ x ∈ a, _))

section Enclosures
variable {last : String} {a b awaited stack : List Lexeme} {x : Lexeme}

theorem IsKeyword.append (ha : IsKeyword a) (hb : IsKeyword b) : IsKeyword (a ++ b) :=
  List.forall_mem_append.mpr ⟨ha, hb⟩

@[simp] theorem lastWord_append (last : String) (a b : List Lexeme) :
    lastWord last (a ++ b) = lastWord (lastWord last a) b := List.foldl_append

theorem IsKeyword.enclosures_append (h : IsKeyword a) (last : String) (b : List Lexeme) :
    enclosures last [] (a ++ b) = enclosures (lastWord last a) [] b := by
  induction a generalizing last with
  | nil => rfl
  | cons x a ih =>
    obtain ⟨hplain, hupdate⟩ := h x List.mem_cons_self
    rw [List.cons_append, enclosures, await?_of_isPlain hplain]
    simp only [Option.getD_some, ↓reduceIte, hupdate, Bool.false_eq_true]
    rw [ih fun y hy => h y (List.mem_cons_of_mem x hy)]
    rfl

/-- Balanced lexemes in the midst of parentheses belong to what is enclosed. -/
theorem enclosures_append_of_balanced {u : List Lexeme} (h : outer? .round awaited a = some u)
    (hstack : stack ≠ []) (last : String) (b : List Lexeme) :
    enclosures last (awaited ++ stack) (a ++ b) =
      (enclosures last stack b).modifyHead fun e => (e.1, a ++ e.2) := by
  induction a generalizing awaited u with
  | nil =>
    rw [outer?] at h
    split at h
    · next hawaited =>
      rw [hawaited, List.nil_append, List.nil_append]
      cases enclosures last stack b <;> rfl
    · cases h
  | cons x a ih =>
    obtain ⟨next, v, hnext, hv, rfl⟩ := outer?_cons_eq_some h
    have hne (awaited : List Lexeme) : awaited ++ stack ≠ [] :=
      fun hnil => hstack (List.append_eq_nil_iff.mp hnil).2
    rw [List.cons_append, enclosures, await?_append hnext stack]
    simp only [Option.getD_some, if_neg (hne _), ih hv, List.modifyHead_modifyHead]
    rfl

/-- What stands in parentheses behind a keyword is enclosed behind its last word. -/
theorem IsKeyword.enclosures_enclosed (ha : IsKeyword a) (hb : IsBalanced .round b) (last : String)
    (rest : List Lexeme) : enclosures last [] (a ++ ([.sign "("] ++ b ++ [.sign ")"]) ++ rest) =
      (lastWord last a, b) :: enclosures (lastWord last a) [] rest := by
  obtain ⟨u, hu⟩ := hb
  have hinside := enclosures_append_of_balanced hu (List.cons_ne_nil (.sign ")") [])
    (lastWord last a) (.sign ")" :: rest)
  rw [List.nil_append] at hinside
  have hopening (last : String) (ls : List Lexeme) : enclosures last [] (.sign "(" :: ls) =
      enclosures last [.sign ")"] ls := rfl
  have hclosing (last : String) : enclosures last [.sign ")"] (.sign ")" :: rest) =
      (last, []) :: enclosures last [] rest := rfl
  rw [List.append_assoc, ha.enclosures_append, List.append_assoc, List.append_assoc,
    List.singleton_append, List.singleton_append, hopening, hinside, hclosing, List.modifyHead_cons,
    List.append_nil]

end Enclosures

/-- What is enclosed is a list if the word before it says so. -/
def namedLists (enclosed : List (String × List Lexeme)) : List (Part × List Lexeme) :=
  enclosed.filterMap fun e => (Part.ofWord? e.1).map (·, e.2)

/-- The lists that are sections. -/
def sectionLists (secs : List StatementSection) : List (Part × List Lexeme) :=
  secs.filterMap fun sec => (Part.ofSection? sec.1).map (·, sec.2)

/-- The lists have these items. -/
def AreListsOf (found : List (Part × List Lexeme)) (lists : List (Part × List (List Lexeme))) : Prop :=
  List.Forall₂ (fun found list => found.1 = list.1 ∧ IsListOf list.1 list.2 found.2) found lists

/-- The lists of a statement stand in parentheses. -/
def enclosesLists (a : List Lexeme) : Bool :=
  a.head?.any fun x => x.isWord "CREATE" || x.isWord "INSERT" || x.isWord "MERGE"

/-- The words that begin sections are others. -/
theorem enclosesLists_ofSections {Q : String → Prop} {secs : List StatementSection}
    (h : ∀ sec ∈ secs, IsSection Q sec) : enclosesLists (ofSections secs) = false := by
  cases secs with
  | nil => rfl
  | cons sec secs =>
    have hother : ∀ w ∈ sectionWords, w ≠ "CREATE" ∧ w ≠ "INSERT" ∧ w ≠ "MERGE" := by decide
    obtain ⟨hcreate, hinsert, hmerge⟩ := hother _ (h sec List.mem_cons_self).begins
    rw [ofSections_cons, enclosesLists, List.cons_append, List.head?_cons]
    simp [isWord, hcreate, hinsert, hmerge]

end Lexeme

namespace Statement

open Lexeme

/-- The lists of the statement. -/
def lists (s : Statement) : List (Part × List Lexeme) :=
  if enclosesLists s.lexemes then namedLists (enclosures "" [] s.lexemes) else sectionLists s.sections

def parts (s : Statement) : List Part := s.lists.map (·.1)

/-- Each list has items only, and commas only between them. -/
def IsWellListed (s : Statement) : Prop :=
  ∀ list ∈ s.lists, ∀ item ∈ items list.2, IsItem list.1 item

/-- The statement has lists of these items, each where the list is found. -/
def Holds (s : Statement) (lists : List (Part × List (List Lexeme))) : Prop :=
  AreListsOf s.lists lists

section Holds
variable {s : Statement} {lists : List (Part × List (List Lexeme))}

theorem holds_of_encloses {a : List Atom} {ls : List Lexeme} (htidy : s.body.Tidy)
    (hbody : s.body.atoms = a) (ha : Spells a ls) (hencloses : enclosesLists ls = true)
    (h : AreListsOf (namedLists (enclosures "" [] ls)) lists) : s.Holds lists := by
  rw [Holds, Statement.lists, htidy.lexemes_eq, hbody, ha.read_eq, if_pos hencloses]
  exact h

theorem holds_of_consists {Q : String → Prop} {secs : List StatementSection} (hs : s.Consists Q secs)
    (h : AreListsOf (sectionLists secs) lists) : s.Holds lists := by
  rw [Holds, Statement.lists, hs.lexemes, enclosesLists_ofSections hs.sections,
    if_neg Bool.false_ne_true, hs.sections_eq]
  exact h

theorem Holds.parts_eq (h : s.Holds lists) : s.parts = lists.map (·.1) := by
  unfold Holds AreListsOf at h
  rw [parts]
  generalize s.lists = found at h ⊢
  induction h with
  | nil => rfl
  | cons hfirst _ ih => rw [List.map_cons, List.map_cons, hfirst.1, ih]

/-- The lists are as they should be exactly if none of them is empty. -/
theorem Holds.isWellListed_iff (h : s.Holds lists) :
    s.IsWellListed ↔ ∀ list ∈ lists, list.2 ≠ [] := by
  unfold Holds AreListsOf at h
  rw [IsWellListed]
  generalize s.lists = found at h ⊢
  induction h with
  | nil => exact ⟨fun _ => List.forall_mem_nil _, fun _ => List.forall_mem_nil _⟩
  | cons hfirst _ ih =>
    rw [List.forall_mem_cons, List.forall_mem_cons, ih, hfirst.1, hfirst.2.forall_isItem_iff]

end Holds

end Statement

end RecordMapper
