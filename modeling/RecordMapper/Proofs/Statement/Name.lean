import RecordMapper.Proofs.Result
import RecordMapper.Proofs.Statement.Lexeme

/-!
# Names and lists as lexemes

Names are words or quoted texts with points between them. The lexemes of a statement are those of
its body, and a body is put together of pieces.
-/

set_option autoImplicit false

namespace RecordMapper

/-- A name as SQL writes it: a regular one stands by itself, a delimited one in its quotes. -/
inductive NamePart
  | regular (s : String)
  | delimited (quote : Char) (s : String)
deriving DecidableEq

namespace NamePart

/-- The words that the grammar of expressions keeps for itself. -/
def keywords : List String :=
  ["AND", "OR", "NOT", "IS", "NULL", "CASE", "WHEN", "THEN", "ELSE", "END"]

def text : NamePart → String
  | regular s => s
  | delimited quote s => Text.quoted quote s

def lexeme : NamePart → Lexeme
  | regular s => .word s
  | delimited quote s => .quoted quote s

/-- A regular name is a word that is no keyword; a text in single quotes is no name. -/
def IsValid : NamePart → Prop
  | regular s => Lexeme.isRegular s.toList = true ∧ Text.upper s ∉ keywords
  | delimited quote _ => SqlText.isQuote quote = true ∧ quote ≠ '\''

end NamePart

/-- One or more names with points between them. -/
structure QualifiedName where
  first : NamePart
  others : List NamePart := []
deriving DecidableEq

namespace QualifiedName

def pointed : List NamePart → String
  | [] => ""
  | part :: rest => "." ++ part.text ++ pointed rest

def text (n : QualifiedName) : String := n.first.text ++ pointed n.others

def lexemes (n : QualifiedName) : List Lexeme :=
  n.first.lexeme :: n.others.flatMap fun part => [.sign ".", part.lexeme]

def IsValid (n : QualifiedName) : Prop := n.first.IsValid ∧ ∀ part ∈ n.others, part.IsValid

end QualifiedName

open Lexeme
open Scanner
open Sql (chars chars_append)

/-- A part of a name ends before a break and before a point. -/
theorem NamePart.read_text {part : NamePart} (h : part.IsValid) {rest : List Atom}
    (hrest : ∀ a ∈ rest.head?, isBreak a = true ∨ a = .char '.') :
    scanner.read .outside (chars part.text ++ rest) =
      part.lexeme :: scanner.read .outside rest := by
  cases part with
  | regular s =>
    have hended : ∀ a ∈ rest.head?, scanner.next? (.run .word s.toList.reverse) a = none := by
      intro a ha
      rcases hrest a ha with hbreak | rfl
      · exact next?_word_of_isBreak hbreak
      · rfl
    rw [text, chars, read_regular h.1, read_of_ended hended, finished, List.reverse_reverse,
      String.ofList_toList, lexeme, List.singleton_append]
    rfl
  | delimited quote s =>
    have hended : ∀ a ∈ rest.head?, scanner.next? (.closed quote s.toList.reverse) a = none := by
      intro a ha
      rcases hrest a ha with hbreak | rfl
      · exact next?_closed_of_breaks h.1 hbreak
      · rw [next?, if_neg]
        rintro rfl
        exact absurd h.1 (by decide)
    rw [text, read_quoted h.1, read_of_ended hended, finished, List.reverse_reverse,
      String.ofList_toList, lexeme, List.singleton_append]
    rfl

/-- A point before a name is a sign by itself. -/
theorem NamePart.read_point {part : NamePart} (h : part.IsValid) (rest : List Atom) :
    scanner.read .outside (chars ("." ++ part.text) ++ rest) =
      .sign "." :: scanner.read .outside (chars part.text ++ rest) := by
  have hfirst : ∃ c cs, part.text.toList = c :: cs ∧ Numeral.isDigit c = false := by
    cases part with
    | regular s =>
      cases hs : s.toList with
      | nil =>
        have hregular := h.1
        rw [hs] at hregular
        cases hregular
      | cons c cs =>
        refine ⟨c, cs, hs, ?_⟩
        have hregular := h.1
        rw [hs, isRegular, Bool.and_eq_true] at hregular
        rw [Bool.eq_false_iff]
        intro hdigit
        rw [(plain_of_isDigit hdigit).2.1] at hregular
        cases hregular.1
    | delimited quote s =>
      refine ⟨quote, Text.doubled quote s.toList ++ [quote], String.toList_ofList, ?_⟩
      rw [Bool.eq_false_iff]
      intro hdigit
      have hquote := h.1
      rw [(plain_of_isDigit hdigit).1] at hquote
      cases hquote
  obtain ⟨c, cs, htext, hdigit⟩ := hfirst
  rw [chars_append, List.append_assoc, chars, chars, htext]
  have hended : scanner.next? (.run .sign ['.']) (.char c) = none := by
    change (if Numeral.isDigit c then some Run.number else none).map _ = none
    rw [hdigit, if_neg Bool.false_ne_true, Option.map_none]
  change scanner.read (.run .sign ['.']) (.char c :: (cs.map .char ++ rest)) = _
  rw [Scanner.read, hended, List.map_cons, List.cons_append, read_outside, List.append_assoc]
  rfl

theorem QualifiedName.spells {n : QualifiedName} (h : n.IsValid) :
    Lexeme.Spells (chars n.text) n.lexemes := by
  intro rest hrest
  have hpointed {parts : List NamePart} (hparts : ∀ part ∈ parts, part.IsValid) :
      scanner.read .outside (chars (pointed parts) ++ rest) =
        (parts.flatMap fun part => [.sign ".", part.lexeme]) ++ scanner.read .outside rest ∧
      ∀ a ∈ (chars (pointed parts) ++ rest).head?, isBreak a = true ∨ a = .char '.' := by
    induction parts with
    | nil => exact ⟨rfl, fun a ha => .inl (hrest a ha)⟩
    | cons part parts ih =>
      have hpart := hparts part List.mem_cons_self
      obtain ⟨hread, hhead⟩ := ih fun x hx => hparts x (List.mem_cons_of_mem part hx)
      constructor
      · rw [pointed, chars_append, List.append_assoc, NamePart.read_point hpart,
          NamePart.read_text hpart hhead, hread, List.flatMap_cons]
        rfl
      · intro a ha
        rw [pointed, String.append_assoc, chars_append] at ha
        exact .inr (Option.some.inj ha).symm
  obtain ⟨hread, hhead⟩ := hpointed h.2
  rw [text, chars_append, List.append_assoc, NamePart.read_text h.1 hhead, hread]
  rfl

theorem NamePart.word {part : NamePart} (h : part.IsValid) : SqlText.Word part.text := by
  cases part with
  | delimited quote s => exact .quoted h.1 s
  | regular s =>
    have hregular := h.1
    have hplain {c : Char} (hc : isWordPart c = true) :
        SqlText.isQuote c = false ∧ c ≠ '?' ∧ c ≠ '$' := by
      refine ⟨?_, ?_, ?_⟩
      · rw [Bool.eq_false_iff]
        intro hquote
        simp only [SqlText.isQuote, Bool.or_eq_true, decide_eq_true_eq] at hquote
        rcases hquote with (rfl | rfl) | rfl <;> exact absurd hc (by decide)
      · rintro rfl
        exact absurd hc (by decide)
      · rintro rfl
        exact absurd hc (by decide)
    cases hs : s.toList with
    | nil =>
      rw [hs] at hregular
      cases hregular
    | cons c cs =>
      rw [hs] at hregular
      obtain ⟨hstart, hparts⟩ := Bool.and_eq_true_iff.mp hregular
      have hall : SqlText.IsPlain s.toList := by
        rw [hs]
        refine List.forall_mem_cons.mpr ⟨hplain (by rw [isWordPart, hstart, Bool.true_or]), ?_⟩
        intro x hx
        exact hplain (List.all_eq_true.mp hparts x hx)
      refine ⟨hall.isBalanced, ?_⟩
      rw [text, hs, SqlText.leads, Bool.not_eq_true', Bool.eq_false_iff]
      intro hdigit
      rw [(plain_of_isDigit hdigit).2.1] at hstart
      cases hstart

theorem QualifiedName.word {n : QualifiedName} (h : n.IsValid) : SqlText.Word n.text := by
  refine (NamePart.word h.1).append ?_
  have hothers := h.2
  generalize n.others = parts at hothers
  induction parts with
  | nil => exact .literal rfl
  | cons part parts ih =>
    have hpart := (NamePart.word (hothers part List.mem_cons_self)).balanced
    have hpoint : SqlText.Balanced ("." ++ part.text) := SqlText.Balanced.append (.literal rfl) hpart
    exact hpoint.append (ih fun x hx => hothers x (List.mem_cons_of_mem part hx))

theorem QualifiedName.forall_mem_lexemes {P : Lexeme → Prop} {n : QualifiedName} (h : n.IsValid)
    (hpart : ∀ part : NamePart, part.IsValid → P part.lexeme) (hpoint : P (.sign ".")) :
    ∀ x ∈ n.lexemes, P x := by
  intro x hx
  rcases List.mem_cons.mp hx with rfl | hx
  · exact hpart n.first h.1
  · obtain ⟨part, hmem, hx⟩ := List.mem_flatMap.mp hx
    rcases List.mem_cons.mp hx with rfl | hx
    · exact hpoint
    · obtain rfl := List.mem_singleton.mp hx
      exact hpart part (h.2 part hmem)

/-- What the text of the statement is cut into, with its parameters in place of the placeholders. -/
def Statement.lexemes (s : Statement) : List Lexeme := scanner.read .outside s.atoms

theorem Sql.Tidy.lexemes_eq {s : Statement} (h : s.body.Tidy) :
    s.lexemes = scanner.read .outside s.body.atoms := by
  rw [Statement.lexemes, h.atoms_eq]

/-- What the piece is cut into if it stands alone. -/
def Sql.lexemes (a : Sql) : List Lexeme := scanner.read .outside a.atoms

/-- What is written for the elements of a list, with commas between. -/
theorem Lexeme.Spells.commas {α : Type} {write : α → Sql} {ls : α → List Lexeme} {xs : List α}
    (h : ∀ x ∈ xs, Spells (write x).atoms (ls x)) :
    Spells (Sql.commas (xs.map write)).atoms ([.sign ","].intercalate (xs.map ls)) :=
  .separated (fun _ => rfl) rfl rfl h

/-- Pieces that are written one by one for the elements of a list. -/
theorem Lexeme.Follows.flatten {α : Type} {write : α → Result Sql} {ls : α → List Lexeme}
    {xs : List α}
    {pieces : List Sql} (h : xs.mapM write = .ok pieces)
    (hwrite : ∀ x ∈ xs, ∀ piece, write x = .ok piece → Follows piece.atoms (ls x)) :
    Follows (Sql.atoms pieces.flatten) (xs.flatMap ls) := by
  induction xs generalizing pieces with
  | nil =>
    obtain rfl : [] = pieces := Except.ok.inj h
    exact .nil
  | cons x rest ih =>
    rw [List.mapM_cons] at h
    obtain ⟨piece, hpiece, h⟩ := Result.bind_eq_ok_iff.mp h
    obtain ⟨others, hothers, h⟩ := Result.bind_eq_ok_iff.mp h
    obtain rfl : piece :: others = pieces := Except.ok.inj h
    rw [List.flatten_cons, Sql.atoms_append, List.flatMap_cons]
    exact (hwrite x List.mem_cons_self piece hpiece).append
      (ih hothers fun y hy => hwrite y (List.mem_cons_of_mem x hy))

end RecordMapper
