import Mathlib.Data.List.Induction
import RecordMapper.Proofs.Statement.Placeholder

/-!
# Reading a statement piece by piece

A statement is read the way a database reads it. Its placeholders stand for its parameters, in
order, and a quoted text reaches to its own closing quote. What is made of the characters outside
quotes is left to the scanner: some of them begin a run of characters, others are a piece by
themselves or only separate. What a piece of SQL is read as does not depend on what stands around
it, as long as something stands behind it that ends it.

Comments and escapes of single products are not told apart.
-/

set_option autoImplicit false

namespace RecordMapper

/-- A character of a statement, or a parameter in place of its placeholder. -/
inductive Atom
  | char (c : Char)
  | param (v : Value)
deriving DecidableEq

namespace SqlText

/-- The pieces of a text with the parameters in place of the placeholders. -/
def bound : List Value → List Piece → List Atom
  | _, [] => []
  | params, .char c :: rest => .char c :: bound params rest
  | v :: params, .placeholder _ :: rest => .param v :: bound params rest
  | [], .placeholder mark :: rest => mark.map .char ++ bound [] rest

end SqlText

def Statement.atoms (s : Statement) : List Atom :=
  SqlText.bound s.params (SqlText.pieces none s.sql.toList)

namespace Sql

/-- The atoms of a text. -/
def chars (s : String) : List Atom := s.toList.map .char

@[simp] theorem chars_append (a b : String) : chars (a ++ b) = chars a ++ chars b := by
  rw [chars, String.toList_append, List.map_append, chars, chars]

def atoms : Sql → List Atom
  | [] => []
  | .text s :: rest => chars s ++ atoms rest
  | .param v :: rest => .param v :: atoms rest

@[simp] theorem atoms_append (a b : Sql) : atoms (a ++ b) = a.atoms ++ b.atoms := by
  induction a with
  | nil => rfl
  | cons f rest ih =>
    cases f with
    | text s => rw [List.cons_append, atoms, ih, atoms, List.append_assoc]
    | param v => rw [List.cons_append, atoms, ih, atoms, List.cons_append]

@[simp] theorem atoms_text (s : String) : (text s).atoms = chars s := List.append_nil _

theorem bound_pieces (style : PlaceholderStyle) (n : Nat) (body : Sql) :
    SqlText.bound body.params (body.pieces style n) = body.atoms := by
  induction body generalizing n with
  | nil => rfl
  | cons f rest ih =>
    cases f with
    | text s =>
      rw [pieces, params, atoms, chars]
      generalize s.toList = cs
      induction cs with
      | nil => exact ih n
      | cons c cs hcs =>
        rw [List.map_cons, List.map_cons, List.cons_append, SqlText.bound, hcs, List.cons_append]
    | param v => rw [pieces, params, atoms, SqlText.bound, ih]

/-- The atoms of a tidy body are seen from its fragments. -/
theorem Tidy.atoms_eq {s : Statement} (h : s.body.Tidy) : s.atoms = s.body.atoms := by
  rw [Statement.atoms, Statement.sql, pieces_written s.style h, Statement.params, bound_pieces]

end Sql

open Sql (chars)

/-- What is made of the characters outside quotes, and of quoted texts and parameters. -/
structure Scanner (Run Piece : Type) where
  /-- The run that the character begins. -/
  begun? : Char → Option Run
  /-- What the run is with the character behind those that have been seen, in reverse. -/
  continued? : Run → List Char → Char → Option Run
  /-- The piece that the character is whatever follows it. -/
  single? : Char → Option Piece
  run : Run → String → Piece
  quoted : Char → String → Piece
  /-- A quote that is opened and never closed. -/
  unclosed : Char → Piece
  param : Value → Piece
  /-- What divides a piece from what stands before it. -/
  breaks : Atom → Bool
  isQuote_of_breaks : ∀ c, breaks (.char c) = true → SqlText.isQuote c = false

namespace Scanner

/-- Where the reader stands. The characters seen are in reverse. -/
inductive Position (Run : Type)
  | outside
  | run (kind : Run) (seen : List Char)
  | quoted (quote : Char) (seen : List Char)
  /-- Behind a closing quote the quoted text goes on if another one follows. -/
  | closed (quote : Char) (seen : List Char)

section
variable {Run Piece : Type} (r : Scanner Run Piece)

/-- The piece that ends here. -/
def finished : Position Run → List Piece
  | .outside => []
  | .run kind seen => [r.run kind (String.ofList seen.reverse)]
  | .quoted quote _ => [r.unclosed quote]
  | .closed quote seen => [r.quoted quote (String.ofList seen.reverse)]

def next? : Position Run → Atom → Option (Position Run)
  | .run kind seen, .char c => (r.continued? kind seen c).map (.run · (c :: seen))
  | .quoted quote seen, .char c =>
    some (if c = quote then .closed quote seen else .quoted quote (c :: seen))
  | .closed quote seen, .char c => if c = quote then some (.quoted quote (c :: seen)) else none
  | _, _ => none

def begun : Atom → Position Run
  | .char c =>
    if SqlText.isQuote c then .quoted c []
    else
      match r.begun? c with
      | some kind => .run kind [c]
      | none => .outside
  | .param _ => .outside

def single : Atom → List Piece
  | .char c => if SqlText.isQuote c then [] else (r.single? c).toList
  | .param v => [r.param v]

/-- The pieces of the atoms, read on from a position. -/
def read : Position Run → List Atom → List Piece
  | p, [] => r.finished p
  | p, a :: rest =>
    match r.next? p a with
    | some next => read next rest
    | none => r.finished p ++ r.single a ++ read (r.begun a) rest

/-- Something that divides comes first, if anything comes. -/
def Breaks (a : List Atom) : Prop := ∀ first ∈ a.head?, r.breaks first = true

/-- The atoms are these pieces, if nothing or something that divides stands behind them. -/
def Spells (a : List Atom) (ps : List Piece) : Prop :=
  ∀ rest, r.Breaks rest → r.read .outside (a ++ rest) = ps ++ r.read .outside rest

/-- The atoms are these pieces, whatever stands behind them. -/
def Delimited (a : List Atom) (ps : List Piece) : Prop :=
  ∀ rest, r.read .outside (a ++ rest) = ps ++ r.read .outside rest

/-- Atoms that are these pieces and divide them from what stands before. -/
structure Follows (a : List Atom) (ps : List Piece) : Prop where
  spells : r.Spells a ps
  breaks : r.Breaks a

end

section
variable {Run Piece : Type} {r : Scanner Run Piece} {a b : List Atom} {ps qs : List Piece}

theorem read_of_next {p next : Position Run} {x : Atom} (h : r.next? p x = some next)
    (rest : List Atom) : r.read p (x :: rest) = r.read next rest := by
  rw [read, h]

theorem read_outside (x : Atom) (rest : List Atom) :
    r.read .outside (x :: rest) = r.single x ++ r.read (r.begun x) rest := by
  cases x <;> rfl

/-- A piece ends before an atom that does not continue it. -/
theorem read_of_ended {p : Position Run} {rest : List Atom}
    (h : ∀ x ∈ rest.head?, r.next? p x = none) :
    r.read p rest = r.finished p ++ r.read .outside rest := by
  cases rest with
  | nil => rw [read, read, finished, List.append_nil]
  | cons x rest => rw [read, h x rfl, read_outside, List.append_assoc]

theorem Breaks.nil : r.Breaks [] := by
  intro first h
  cases h

theorem Breaks.append (ha : r.Breaks a) (hb : r.Breaks b) : r.Breaks (a ++ b) := by
  cases a with
  | nil => exact hb
  | cons first rest => exact ha

theorem Breaks.of_head {first : Atom} (hfirst : b.head? = some first)
    (hbreaks : r.breaks first = true) (rest : List Atom) : r.Breaks (b ++ rest) := by
  intro x hx
  rw [List.head?_append, hfirst, Option.some_or] at hx
  obtain rfl := Option.some.inj hx
  exact hbreaks

theorem Spells.read_eq (h : r.Spells a ps) : r.read .outside a = ps := by
  have hall := h [] .nil
  rwa [List.append_nil, read, finished, List.append_nil] at hall

theorem Delimited.spells (h : r.Delimited a ps) : r.Spells a ps := fun rest _ => h rest

theorem Delimited.nil : r.Delimited [] [] := fun _ => rfl

theorem Delimited.param (v : Value) : r.Delimited [.param v] [r.param v] := fun _ => rfl

theorem Delimited.append (ha : r.Delimited a ps) (hb : r.Delimited b qs) :
    r.Delimited (a ++ b) (ps ++ qs) := by
  intro rest
  rw [List.append_assoc, ha, hb, List.append_assoc]

theorem Delimited.append_spells (ha : r.Delimited a ps) (hb : r.Spells b qs) :
    r.Spells (a ++ b) (ps ++ qs) := by
  intro rest hrest
  rw [List.append_assoc, ha, hb rest hrest, List.append_assoc]

theorem Spells.append (ha : r.Spells a ps) (hb : r.Spells b qs) (hbreaks : r.Breaks b) :
    r.Spells (a ++ b) (ps ++ qs) := by
  intro rest hrest
  rw [List.append_assoc, ha _ (hbreaks.append hrest), hb rest hrest, List.append_assoc]

/-- A piece that begins with something that divides delimits what stands before it. -/
theorem Spells.append_delimited (ha : r.Spells a ps) (hb : r.Delimited b qs) {first : Atom}
    (hfirst : b.head? = some first) (hbreaks : r.breaks first = true) :
    r.Delimited (a ++ b) (ps ++ qs) := by
  intro rest
  rw [List.append_assoc, ha _ (.of_head hfirst hbreaks rest), hb, List.append_assoc]

theorem Follows.nil : r.Follows [] [] := ⟨Delimited.nil.spells, .nil⟩

theorem Spells.append_follows (ha : r.Spells a ps) (hb : r.Follows b qs) :
    r.Spells (a ++ b) (ps ++ qs) :=
  ha.append hb.spells hb.breaks

theorem Follows.append (ha : r.Follows a ps) (hb : r.Follows b qs) :
    r.Follows (a ++ b) (ps ++ qs) :=
  ⟨ha.spells.append_follows hb, ha.breaks.append hb.breaks⟩

theorem Delimited.follows (ha : r.Delimited a ps) {first : Atom} (hfirst : a.head? = some first)
    (hbreaks : r.breaks first = true) (hb : r.Spells b qs) : r.Follows (a ++ b) (ps ++ qs) :=
  ⟨ha.append_spells hb, .of_head hfirst hbreaks b⟩

/-- By induction on the quoted text: a quote in it is closed and opened again at once. -/
theorem read_doubled (quote : Char) (cs seen : List Char) (rest : List Atom) :
    r.read (.quoted quote seen) ((Text.doubled quote cs).map .char ++ rest) =
      r.read (.quoted quote (cs.reverse ++ seen)) rest := by
  induction cs generalizing seen with
  | nil => rfl
  | cons c cs ih =>
    rw [Text.doubled, List.reverse_cons, List.append_assoc, List.singleton_append]
    split
    · next hc =>
      subst hc
      rw [List.map_cons, List.map_cons, List.cons_append, List.cons_append,
        read_of_next (by rw [next?, if_pos rfl]), read_of_next (by rw [next?, if_pos rfl]), ih]
    · next hc =>
      rw [List.map_cons, List.cons_append, read_of_next (by rw [next?, if_neg hc]), ih]

theorem read_quoted {quote : Char} (hquote : SqlText.isQuote quote = true) (s : String)
    (rest : List Atom) : r.read .outside (chars (Text.quoted quote s) ++ rest) =
      r.read (.closed quote s.toList.reverse) rest := by
  have hbegin (more : List Atom) : r.read .outside (.char quote :: more) =
      r.read (.quoted quote []) more := by
    rw [read_outside, single, begun, hquote]
    rfl
  rw [chars, Text.quoted, String.toList_ofList, List.cons_append, List.map_cons, List.map_append,
    List.cons_append, List.append_assoc, hbegin, read_doubled, List.append_nil]
  exact read_of_next (by rw [next?, if_pos rfl]) rest

theorem next?_closed_of_breaks {quote : Char} (hquote : SqlText.isQuote quote = true)
    {seen : List Char} {x : Atom} (h : r.breaks x = true) :
    r.next? (.closed quote seen) x = none := by
  cases x with
  | param v => rfl
  | char c =>
    rw [next?, if_neg]
    rintro rfl
    rw [r.isQuote_of_breaks c h] at hquote
    cases hquote

theorem Spells.quoted {quote : Char} (hquote : SqlText.isQuote quote = true) (s : String) :
    r.Spells (chars (Text.quoted quote s)) [r.quoted quote s] := by
  intro rest hrest
  rw [read_quoted hquote, read_of_ended fun x hx => next?_closed_of_breaks hquote (hrest x hx),
    finished, List.reverse_reverse, String.ofList_toList]

/-- Pieces of SQL between which stands a separator that is one piece. -/
theorem Spells.separated {separator : String} {x : Piece}
    (hseparator : r.Delimited (chars separator) [x]) {first : Atom}
    (hfirst : (chars separator).head? = some first) (hbreaks : r.breaks first = true)
    {α : Type} {write : α → Sql} {pieces : α → List Piece} {ys : List α}
    (h : ∀ y ∈ ys, r.Spells (write y).atoms (pieces y)) :
    r.Spells (Sql.separated separator (ys.map write)).atoms ([x].intercalate (ys.map pieces)) := by
  induction ys using List.twoStepInduction with
  | nil => exact Delimited.nil.spells
  | singleton y =>
    rw [List.map_singleton, List.map_singleton, List.intercalate_singleton]
    exact h y List.mem_cons_self
  | cons_cons y next others _ ih =>
    have hy := h y List.mem_cons_self
    have hrest := ih next fun z hz => h z (List.mem_cons_of_mem y hz)
    rw [List.map_cons, List.map_cons, Sql.separated, Sql.atoms_append, Sql.atoms_append,
      Sql.atoms_text, List.map_cons, List.map_cons, List.intercalate_cons_cons]
    exact (hy.append_delimited hseparator hfirst hbreaks).append_spells hrest

end

end Scanner

end RecordMapper
