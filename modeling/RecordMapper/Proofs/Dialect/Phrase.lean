import RecordMapper.Dialect.Definition
import RecordMapper.Proofs.Query.Lexemes
import RecordMapper.Proofs.Statement.Listing

/-!
# Definitions of columns

What a column is defined by are words and numbers behind its name; the commas of a type stand in
parentheses. Types, and the clauses of generated columns, say nothing of nulls and of keys: what is
said of them stands behind the type, or in its place where the column is the key by itself.
-/

set_option autoImplicit false

namespace RecordMapper

open Lexeme
open Sql (chars chars_append)

namespace Lexeme

/-- The words that constrain a column or make it the key. -/
def constraintWords : List String := ["NOT", "NULL", "PRIMARY", "KEY"]

/-- Words and numbers that say what a column is, and constrain nothing. -/
structure IsDescription (a : List Lexeme) : Prop where
  phrase : IsPhrase a
  unconstrained : ∀ x ∈ a, ∀ w ∈ constraintWords, x.isWord w = false

theorem isAdditive_isDescription : IsAdditive IsDescription where
  nil := ⟨isAdditive_isPhrase.nil, List.forall_mem_nil _⟩
  append ha hb := ⟨isAdditive_isPhrase.append ha.phrase hb.phrase,
    List.forall_mem_append.mpr ⟨ha.unconstrained, hb.unconstrained⟩⟩

theorem isPhrase_words (words : List String) : IsPhrase (words.map .word) := by
  refine isAdditive_isPhrase.of_forall fun x hx => ?_
  obtain ⟨w, -, rfl⟩ := List.mem_map.mp hx
  exact ⟨isClosed_word w, by simp⟩

/-- The text describes a column. -/
def Describes (s : String) : Prop := ∃ ls, IsDescription ls ∧ Spells (chars s) ls

/-- A word that constrains nothing, in letters of either case. -/
def IsPlainWord (s : String) : Prop := ∀ w ∈ constraintWords, Text.upper s ≠ w

instance (s : String) : Decidable (IsPlainWord s) := inferInstanceAs (Decidable (∀ w ∈ _, _))

theorem IsPlainWord.isWord {s w : String} (h : IsPlainWord s) (hw : w ∈ constraintWords) :
    isWord w (.word s) = false := decide_eq_false (h w hw)

theorem describes_word {s : String} (h : isRegular s.toList = true) (hs : IsPlainWord s) :
    Describes s :=
  ⟨[.word s], ⟨isPhrase_words [s], List.forall_mem_singleton.mpr fun _ => hs.isWord⟩, .word h⟩

/-- Text behind a blank goes on with the lexemes before it. -/
theorem Spells.append_blank {a b : String} {ls ms : List Lexeme} (ha : Spells (chars a) ls)
    (hb : Spells (chars b) ms) : Spells (chars (a ++ (" " ++ b))) (ls ++ ms) := by
  have hblank : Delimited (chars " ") [] := fun _ => rfl
  rw [chars_append, chars_append]
  exact ha.append_follows (hblank.follows rfl rfl hb)

theorem Describes.append {a b : String} (ha : Describes a) (hb : Describes b) :
    Describes (a ++ (" " ++ b)) := by
  obtain ⟨ls, hls, hspells⟩ := ha
  obtain ⟨ms, hms, hspells'⟩ := hb
  exact ⟨ls ++ ms, isAdditive_isDescription.append hls hms, hspells.append_blank hspells'⟩

/-- A word with numbers in parentheses behind it. -/
theorem describes_measured (lead : String) {s numbers w : String} {ls : List Lexeme}
    (hs : s = lead ++ numbers ++ ")") (hlead : Delimited (chars lead) [.word w, .sign "("])
    (hw : IsPlainWord w) (hnumbers : Spells (chars numbers) ls)
    (hplain : ∀ x ∈ ls, x.IsPlain .round ∧ (∀ quote name, x ≠ .quoted quote name) ∧
      ∀ word, x.isWord word = false) : Describes s := by
  have hclose : Delimited (chars ")") [.sign ")"] := fun _ => rfl
  refine ⟨[.word w] ++ ([.sign "("] ++ ls ++ [.sign ")"]), ⟨⟨?_, ?_⟩, ?_⟩, ?_⟩
  · exact (isClosed_word w).append
      (.enclosed isPair_parentheses (.of_forall fun x hx => (hplain x hx).1))
  · intro quote name hmem
    have hquoted : .quoted quote name ∈ ls := by simpa using hmem
    exact (hplain _ hquoted).2.1 quote name rfl
  · intro x hx word hword
    have hx : x = .word w ∨ x = .sign "(" ∨ x ∈ ls ∨ x = .sign ")" := by simpa using hx
    rcases hx with rfl | rfl | hx | rfl
    · exact hw.isWord hword
    · rfl
    · exact (hplain x hx).2.2 word
    · rfl
  · have hall := (hlead.append_spells hnumbers).append_delimited hclose rfl rfl
    rw [hs, chars_append, chars_append]
    simpa using hall.spells

end Lexeme

theorem SqlType.describes_name (type : SqlType) : Describes type.name := by
  cases type <;> exact describes_word rfl (by decide)

namespace Dialect

/-- The types and clauses of the dialect describe columns. -/
structure Defines (d : Dialect) : Prop where
  identity : ∀ clause ∈ d.identityClause, Describes clause
  typeName : ∀ c, Describes (d.typeName c)

theorem describes_number (lead : String) (n : Nat) {s w : String}
    (hs : s = lead ++ Numeral.ofNat n ++ ")")
    (hlead : Delimited (chars lead) [.word w, .sign "("]) (hw : IsPlainWord w) :
    Describes s := by
  refine describes_measured lead hs hlead hw (.number (isNumeral_ofNat n))
    (List.forall_mem_singleton.mpr ?_)
  exact ⟨⟨rfl, rfl⟩, nofun, fun _ => rfl⟩

theorem describes_standardType (c : Column) : Describes (standardType c) := by
  unfold standardType
  split
  · next length _ _ => exact describes_number "VARCHAR(" length rfl (fun _ => rfl) (by decide)
  · next precision scale _ _ _ =>
    have hcomma : Delimited (chars ",") [.sign ","] := fun _ => rfl
    have hnumbers := ((Spells.number (isNumeral_ofNat precision)).append_delimited hcomma rfl
      rfl).append_spells (Spells.number (isNumeral_ofNat scale))
    rw [← chars_append, ← chars_append] at hnumbers
    refine describes_measured "DECIMAL(" ?_ (fun _ => rfl) (by decide) hnumbers ?_
    · simp only [String.append_assoc]
    · intro x hx
      simp only [List.cons_append, List.nil_append, List.mem_cons,
        List.not_mem_nil, or_false] at hx
      rcases hx with rfl | rfl | rfl <;> exact ⟨⟨rfl, rfl⟩, nofun, fun _ => rfl⟩
  · next precision _ _ _ => exact describes_number "DECIMAL(" precision rfl (fun _ => rfl) (by decide)
  · exact SqlType.describes_name _

theorem describes_doublePrecision : Describes "DOUBLE PRECISION" :=
  Describes.append (a := "DOUBLE") (b := "PRECISION") (describes_word rfl (by decide))
    (describes_word rfl (by decide))

theorem describes_h2Type (c : Column) : Describes (h2Type c) := by
  unfold h2Type
  split
  · exact describes_doublePrecision
  · exact describes_standardType c

theorem describes_mySqlType (c : Column) : Describes (mySqlType c) := by
  unfold mySqlType
  split
  · exact describes_number "VARCHAR(" 255 (by decide +kernel) (fun _ => rfl) (by decide)
  · exact describes_word rfl (by decide)
  · exact describes_number "CHAR(" 36 (by decide +kernel) (fun _ => rfl) (by decide)
  · exact describes_word rfl (by decide)
  · exact describes_standardType c

theorem describes_postgreSqlType (c : Column) : Describes (postgreSqlType c) := by
  unfold postgreSqlType
  split
  case h_6 => exact describes_doublePrecision
  case h_9 => exact describes_standardType c
  all_goals exact describes_word rfl (by decide)

theorem describes_sqliteType (c : Column) : Describes (sqliteType c) := by
  unfold sqliteType
  split <;> exact describes_word rfl (by decide)

theorem describes_derbyType (c : Column) : Describes (derbyType c) := by
  unfold derbyType
  split
  · exact describes_word rfl (by decide)
  · exact describes_number "CHAR(" 36 (by decide +kernel) (fun _ => rfl) (by decide)
  · exact describes_number "VARCHAR(" 255 (by decide +kernel) (fun _ => rfl) (by decide)
  · exact describes_standardType c

theorem defines_ofProduct (p : Product) (version : ProductVersion) :
    (ofProduct p version).Defines := by
  have hword {s : String} (h : isRegular s.toList = true) (hs : IsPlainWord s) :
      Describes s := describes_word h hs
  have hidentity : Describes "GENERATED BY DEFAULT AS IDENTITY" := by
    have htext : "GENERATED BY DEFAULT AS IDENTITY" =
        "GENERATED" ++ (" " ++ ("BY" ++ (" " ++ ("DEFAULT" ++ (" " ++ ("AS" ++ (" " ++
          "IDENTITY"))))))) := by decide
    have hend := (hword (s := "AS") rfl (by decide)).append
      (hword (s := "IDENTITY") rfl (by decide))
    have hdefault := (hword (s := "DEFAULT") rfl (by decide)).append hend
    rw [htext]
    exact (hword rfl (by decide)).append ((hword rfl (by decide)).append hdefault)
  cases p with
  | generic =>
    refine ⟨?_, describes_standardType⟩
    rintro _ ⟨⟩
    exact hidentity
  | h2 =>
    refine ⟨?_, describes_h2Type⟩
    rintro _ ⟨⟩
    exact hword rfl (by decide)
  | mySql =>
    refine ⟨?_, describes_mySqlType⟩
    rintro _ ⟨⟩
    exact hword rfl (by decide)
  | postgreSql => exact ⟨nofun, describes_postgreSqlType⟩
  | sqlite => exact ⟨nofun, describes_sqliteType⟩
  | derby =>
    refine ⟨?_, describes_derbyType⟩
    rintro _ ⟨⟩
    exact hidentity

/-- What stands behind the name of a column that is described in this way. -/
def definitionLexemes (d : Dialect) (t : Table) (c : Column) (description : List Lexeme) :
    List Lexeme :=
  if (d.inlineKeyColumn? t).any (·.name = c.name) then
    [.word "INTEGER", .word "PRIMARY", .word "KEY", .word "AUTOINCREMENT"]
  else description ++ if c.nullable then [] else [.word "NOT", .word "NULL"]

theorem exists_description {d : Dialect} (hdefines : d.Defines) (c : Column) :
    ∃ ls, IsDescription ls ∧ Spells (chars (d.typeName c ++
      match c.autoIncrement, d.identityClause with
      | true, some clause => " " ++ clause
      | _, _ => "")) ls := by
  split
  · next clause _ hclause => exact (hdefines.typeName c).append (hdefines.identity clause hclause)
  · rw [String.append_empty]
    exact hdefines.typeName c

/-- A column is described, and then it may be constrained, or else it is the key. -/
theorem exists_spells_columnDefinition {d : Dialect} (hd : d.Delimits) (hdefines : d.Defines)
    (t : Table) (c : Column) : ∃ description, IsDescription description ∧
      Spells (chars (d.columnDefinition t c))
        ([.quoted d.identifierMark c.name] ++ d.definitionLexemes t c description) := by
  have hname : Spells (chars (d.quote c.name)) [.quoted d.identifierMark c.name] :=
    .quoted hd.mark c.name
  have hwords {a b : String} (ha : isRegular a.toList = true) (hb : isRegular b.toList = true) :
      Spells (chars (a ++ (" " ++ b))) ([.word a] ++ [.word b]) := (Spells.word ha).append_blank (.word hb)
  have hinline : " INTEGER PRIMARY KEY AUTOINCREMENT" =
      " " ++ ("INTEGER" ++ (" " ++ "PRIMARY") ++ (" " ++ ("KEY" ++ (" " ++ "AUTOINCREMENT")))) := by
    decide
  have hnotNull : " NOT NULL" = " " ++ ("NOT" ++ (" " ++ "NULL")) := by decide
  have hnullable {a : String} {ls : List Lexeme} (ha : Spells (chars a) ls) :
      Spells (chars (a ++ if c.nullable then "" else " NOT NULL"))
        (ls ++ if c.nullable then [] else [.word "NOT", .word "NULL"]) := by
    split
    · rw [String.append_empty, List.append_nil]
      exact ha
    · rw [hnotNull]
      exact ha.append_blank (hwords rfl rfl)
  obtain ⟨description, hdescription, hspells⟩ := exists_description hdefines c
  refine ⟨description, hdescription, ?_⟩
  unfold columnDefinition definitionLexemes
  split
  · rw [hinline]
    exact hname.append_blank ((hwords rfl rfl).append_blank (hwords rfl rfl))
  · have hdescribed := hname.append_blank hspells
    rw [← String.append_assoc, ← String.append_assoc] at hdescribed
    rw [← List.append_assoc]
    exact hnullable hdescribed

theorem isPhrase_definitionLexemes {d : Dialect} {t : Table} {c : Column} {description : List Lexeme}
    (h : IsDescription description) : IsPhrase (d.definitionLexemes t c description) := by
  unfold definitionLexemes
  split
  · exact isPhrase_words ["INTEGER", "PRIMARY", "KEY", "AUTOINCREMENT"]
  · refine isAdditive_isPhrase.append h.phrase ?_
    split
    · exact isAdditive_isPhrase.nil
    · exact isPhrase_words ["NOT", "NULL"]

/-- A column is defined by words and numbers behind its name. -/
theorem phrases_columnDefinition {d : Dialect} (hd : d.Delimits) (hdefines : d.Defines) (t : Table)
    (c : Column) : ∃ words, IsPhrase words ∧
      Spells (chars (d.columnDefinition t c)) ([.quoted d.identifierMark c.name] ++ words) := by
  obtain ⟨description, hdescription, hspells⟩ := exists_spells_columnDefinition hd hdefines t c
  exact ⟨_, isPhrase_definitionLexemes hdescription, hspells⟩

end Dialect

end RecordMapper
