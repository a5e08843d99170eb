import RecordMapper.Expr.Rendering
import RecordMapper.Proofs.Statement.Name
import RecordMapper.Proofs.Statement.Nesting

/-!
# The normal form of an expression

What is written for an expression is a tree of its own: the folding rules are applied, comparisons
that are negated are reversed, and a literal `NULL` behind `=` or `<>` has made a test. Columns stand
in it by their names and all other named values by their parameters. The SQL of an expression is
that of its normal form, and the two fail alike.
-/

set_option autoImplicit false

namespace RecordMapper

inductive Form
  | number (s : String)
  | text (s : String)
  | null
  | column (name : QualifiedName)
  | param (v : Value)
  | binary (left : Form) (op : Operator) (right : Form)
  | isNull (operand : Form) (negated : Bool)
  | not (inner : Form)
  | and (left right : Form)
  | or (left right : Form)
  | caseWhen (condition ifTrue ifFalse : Form)
  | arrayGet (array index : Form)
deriving DecidableEq

def Operator.all : List Operator := [.eq, .ne, .gt, .ge, .lt, .le, .add, .sub, .mul, .div, .mod]

namespace Form

def sql : Form → Sql
  | number s => Sql.text s
  | text s => Sql.text (Text.literal s)
  | null => Sql.text "NULL"
  | column name => Sql.text name.text
  | param v => Sql.param v
  | binary l op r =>
    Sql.text "(" ++ l.sql ++ Sql.text (" " ++ op.sign ++ " ") ++ r.sql ++ Sql.text ")"
  | isNull e negated =>
    Sql.text "(" ++ e.sql ++ Sql.text (if negated then " IS NOT NULL)" else " IS NULL)")
  | not e => Sql.text "NOT (" ++ e.sql ++ Sql.text ")"
  | and l r => Sql.text "(" ++ l.sql ++ Sql.text " AND " ++ r.sql ++ Sql.text ")"
  | or l r => Sql.text "(" ++ l.sql ++ Sql.text " OR " ++ r.sql ++ Sql.text ")"
  | caseWhen c t f =>
    Sql.text "CASE WHEN " ++ c.sql ++ Sql.text " THEN " ++ t.sql ++ Sql.text " ELSE " ++ f.sql ++
      Sql.text " END"
  | arrayGet a i => a.sql ++ Sql.text "[" ++ i.sql ++ Sql.text "]"

/-- What the SQL of the form is cut into. -/
def lexemes : Form → List Lexeme
  | number s => Lexeme.ofNumeral s
  | text s => [.quoted '\'' s]
  | null => [.word "NULL"]
  | column name => name.lexemes
  | param v => [.param v]
  | binary l op r => [.sign "("] ++ l.lexemes ++ [.sign op.sign] ++ r.lexemes ++ [.sign ")"]
  | isNull e negated =>
    [.sign "("] ++ e.lexemes ++ ([.word "IS"] ++ (if negated then [.word "NOT"] else []) ++
      [.word "NULL", .sign ")"])
  | not e => [.word "NOT", .sign "("] ++ e.lexemes ++ [.sign ")"]
  | and l r => [.sign "("] ++ l.lexemes ++ [.word "AND"] ++ r.lexemes ++ [.sign ")"]
  | or l r => [.sign "("] ++ l.lexemes ++ [.word "OR"] ++ r.lexemes ++ [.sign ")"]
  | caseWhen c t f =>
    [.word "CASE", .word "WHEN"] ++ c.lexemes ++ [.word "THEN"] ++ t.lexemes ++ [.word "ELSE"] ++
      f.lexemes ++ [.word "END"]
  | arrayGet a i => a.lexemes ++ [.sign "["] ++ i.lexemes ++ [.sign "]"]

/-- The number constants are such as `Numeral` says, and the columns such as `Name` says. -/
def IsMadeOf (Numeral : String → Prop) (Name : QualifiedName → Prop) : Form → Prop
  | number s => Numeral s
  | column name => Name name
  | text _ | null | param _ => True
  | isNull e _ | not e => e.IsMadeOf Numeral Name
  | binary l _ r | and l r | or l r | arrayGet l r =>
    l.IsMadeOf Numeral Name ∧ r.IsMadeOf Numeral Name
  | caseWhen c t f =>
    c.IsMadeOf Numeral Name ∧ t.IsMadeOf Numeral Name ∧ f.IsMadeOf Numeral Name

/-- The columns are names. -/
def IsLegible (Numeral : String → Prop) (f : Form) : Prop :=
  f.IsMadeOf Numeral QualifiedName.IsValid

theorem IsMadeOf.mono {P P' : String → Prop} {N N' : QualifiedName → Prop} (hP : ∀ s, P s → P' s)
    (hN : ∀ name, N name → N' name) {f : Form} (h : f.IsMadeOf P N) : f.IsMadeOf P' N' := by
  induction f with
  | number s => exact hP s h
  | text s => trivial
  | null => trivial
  | column name => exact hN name h
  | param v => trivial
  | binary l op r ihl ihr => exact ⟨ihl h.1, ihr h.2⟩
  | isNull e negated ih => exact ih h
  | not e ih => exact ih h
  | and l r ihl ihr => exact ⟨ihl h.1, ihr h.2⟩
  | or l r ihl ihr => exact ⟨ihl h.1, ihr h.2⟩
  | caseWhen c t f ihc iht ihf => exact ⟨ihc h.1, iht h.2.1, ihf h.2.2⟩
  | arrayGet a i iha ihi => exact ⟨iha h.1, ihi h.2⟩

theorem IsLegible.mono {P Q : String → Prop} (hPQ : ∀ s, P s → Q s) {f : Form}
    (h : f.IsLegible P) : f.IsLegible Q := IsMadeOf.mono hPQ (fun _ hname => hname) h

section Spelling
open Lexeme Sql

/-- A piece between two fixed texts. -/
theorem delimited_enclosed {a : Sql} {ls : List Lexeme} (ha : Spells a.atoms ls)
    {before after : String} {xs zs : List Lexeme} (hbefore : Delimited (Sql.chars before) xs)
    (hafter : Delimited (Sql.chars after) zs) {first : Atom}
    (hfirst : (Sql.chars after).head? = some first) (hbreak : isBreak first = true) :
    Delimited (Sql.text before ++ a ++ Sql.text after).atoms (xs ++ ls ++ zs) := by
  simp only [atoms_append, atoms_text]
  exact (hbefore.append_spells ha).append_delimited hafter hfirst hbreak

/-- Two pieces with fixed texts before, between and behind them. -/
theorem delimited_sides {a b : Sql} {ls ms : List Lexeme} (ha : Spells a.atoms ls)
    (hb : Spells b.atoms ms) {before between after : String} {xs ys zs : List Lexeme}
    (hbefore : Delimited (Sql.chars before) xs) (hbetween : Delimited (Sql.chars between) ys)
    (hafter : Delimited (Sql.chars after) zs) {first last : Atom}
    (hfirst : (Sql.chars between).head? = some first) (hfirstBreak : isBreak first = true)
    (hlast : (Sql.chars after).head? = some last) (hlastBreak : isBreak last = true) :
    Delimited (Sql.text before ++ a ++ Sql.text between ++ b ++ Sql.text after).atoms
      (xs ++ ls ++ ys ++ ms ++ zs) := by
  have hleft := delimited_enclosed ha hbefore hbetween hfirst hfirstBreak
  have hboth := (hleft.append_spells hb).append_delimited hafter hlast hlastBreak
  rwa [← atoms_text after, ← atoms_append, ← atoms_append] at hboth

/-- Wherever it stands before a break, what is written for a form is cut in the same way. -/
theorem spells {f : Form} (h : f.IsLegible IsSignedNumeral) : Spells f.sql.atoms f.lexemes := by
  have hopen : Delimited (Sql.chars "(") [.sign "("] := fun _ => rfl
  have hclose : Delimited (Sql.chars ")") [.sign ")"] := fun _ => rfl
  induction f with
  | number s =>
    rw [sql, atoms_text]
    exact .ofNumeral h
  | text s =>
    rw [sql, atoms_text]
    exact .quoted rfl s
  | null =>
    rw [sql, atoms_text]
    exact .word rfl
  | column name =>
    rw [sql, atoms_text]
    exact QualifiedName.spells h
  | param v => exact (Scanner.Delimited.param v).spells
  | binary l op r ihl ihr =>
    have hsign : Delimited (Sql.chars (" " ++ op.sign ++ " ")) [.sign op.sign] := by
      cases op <;> exact fun _ => rfl
    have hfirst : (Sql.chars (" " ++ op.sign ++ " ")).head? = some (.char ' ') := by
      cases op <;> rfl
    exact (delimited_sides (ihl h.1) (ihr h.2) hopen hsign hclose hfirst rfl rfl rfl).spells
  | isNull e negated ih =>
    cases negated with
    | false =>
      have htest : Delimited (Sql.chars " IS NULL)") [.word "IS", .word "NULL", .sign ")"] :=
        fun _ => rfl
      exact (delimited_enclosed (ih h) hopen htest rfl rfl).spells
    | true =>
      have htest : Delimited (Sql.chars " IS NOT NULL)")
          [.word "IS", .word "NOT", .word "NULL", .sign ")"] := fun _ => rfl
      exact (delimited_enclosed (ih h) hopen htest rfl rfl).spells
  | not e ih =>
    have hnot : Delimited (Sql.chars "NOT (") [.word "NOT", .sign "("] := fun _ => rfl
    exact (delimited_enclosed (ih h) hnot hclose rfl rfl).spells
  | and l r ihl ihr =>
    have hand : Delimited (Sql.chars " AND ") [.word "AND"] := fun _ => rfl
    exact (delimited_sides (ihl h.1) (ihr h.2) hopen hand hclose rfl rfl rfl rfl).spells
  | or l r ihl ihr =>
    have hor : Delimited (Sql.chars " OR ") [.word "OR"] := fun _ => rfl
    exact (delimited_sides (ihl h.1) (ihr h.2) hopen hor hclose rfl rfl rfl rfl).spells
  | caseWhen c t f ihc iht ihf =>
    have hcase : Delimited (Sql.chars "CASE WHEN ") [.word "CASE", .word "WHEN"] := fun _ => rfl
    have hthen : Delimited (Sql.chars " THEN ") [.word "THEN"] := fun _ => rfl
    have helse : Delimited (Sql.chars " ELSE ") [.word "ELSE"] := fun _ => rfl
    have hblank : Delimited (Sql.chars " ") [] := fun _ => rfl
    have hword : Spells (Sql.chars "END") [.word "END"] := .word rfl
    have hend : Spells (Sql.chars (" " ++ "END")) [.word "END"] := by
      rw [Sql.chars_append]
      exact hblank.append_spells hword
    have hbegun := delimited_sides (ihc h.1) (iht h.2.1) hcase hthen helse rfl rfl rfl rfl
    have hall := (hbegun.append_spells (ihf h.2.2)).append hend fun first hfirst => by
      obtain rfl := Option.some.inj hfirst
      rfl
    rwa [← atoms_text (" " ++ "END"), ← atoms_append, ← atoms_append] at hall
  | arrayGet a i iha ihi =>
    have hbegin : Delimited (Sql.chars "[") [.sign "["] := fun _ => rfl
    have hend : Delimited (Sql.chars "]") [.sign "]"] := fun _ => rfl
    have harray := (iha h.1).append_delimited hbegin rfl rfl
    have hall := (harray.append_spells (ihi h.2)).append_delimited hend rfl rfl
    rw [sql]
    simp only [atoms_append, atoms_text]
    exact hall.spells

end Spelling

end Form

open Lexeme

/-- Forms are put together with parentheses and square brackets, and nothing else that stands in
them between two parts opens or closes. -/
structure Brackets.SuitForms (brackets : Brackets) : Prop where
  round : IsPair brackets (.sign "(") (.sign ")")
  square : IsPair brackets (.sign "[") (.sign "]")
  sign : ∀ op : Operator, IsPlain brackets (.sign op.sign)
  word : ∀ s ∈ ["IS", "NOT", "NULL", "AND", "OR"], IsPlain brackets (.word s)

theorem Brackets.suitForms_round : round.SuitForms :=
  ⟨⟨rfl, rfl, rfl⟩, ⟨rfl, rfl, rfl⟩, fun op => by cases op <;> decide, by decide⟩

theorem Brackets.suitForms_withCase : withCase.SuitForms :=
  ⟨⟨rfl, rfl, rfl⟩, ⟨rfl, rfl, rfl⟩, fun op => by cases op <;> decide, by decide⟩

namespace Form

def isAtom : Form → Bool
  | number _ | text _ | null | column _ | param _ => true
  | _ => false

/-- A form stands between brackets, but for atoms, what `NOT` stands before and what `CASE` and
`END` hold together. -/
theorem isClosed_lexemes {brackets : Brackets} {isSeparator : Lexeme → Bool}
    {Numeral : String → Prop} {Name : QualifiedName → Prop} (hbrackets : brackets.SuitForms)
    (hnot : isSeparator (.word "NOT") = false)
    (hatom : ∀ f : Form, f.isAtom = true → f.IsMadeOf Numeral Name →
      IsClosed brackets isSeparator f.lexemes)
    (hcase : ∀ c t f, IsClosed brackets isSeparator c → IsClosed brackets isSeparator t →
      IsClosed brackets isSeparator f → IsClosed brackets isSeparator
        ([.word "CASE", .word "WHEN"] ++ c ++ [.word "THEN"] ++ t ++ [.word "ELSE"] ++ f ++
          [.word "END"]))
    {f : Form} (h : f.IsMadeOf Numeral Name) : IsClosed brackets isSeparator f.lexemes := by
  have hword {s : String} (hs : s ∈ ["IS", "NOT", "NULL", "AND", "OR"]) :
      IsBalanced brackets [.word s] := .singleton (hbrackets.word s hs)
  have hsides {x : Lexeme} {l r : Form} (hx : x.IsPlain brackets)
      (hl : IsClosed brackets isSeparator l.lexemes)
      (hr : IsClosed brackets isSeparator r.lexemes) : IsClosed brackets isSeparator
        ([.sign "("] ++ l.lexemes ++ [x] ++ r.lexemes ++ [.sign ")"]) := by
    have hall : IsClosed brackets isSeparator
        ([.sign "("] ++ (l.lexemes ++ [x] ++ r.lexemes) ++ [.sign ")"]) :=
      .enclosed hbrackets.round (hl.isBalanced.sides hx hr.isBalanced)
    simpa only [List.append_assoc] using hall
  induction f with
  | number s => exact hatom _ rfl h
  | text s => exact hatom _ rfl h
  | null => exact hatom _ rfl h
  | column name => exact hatom _ rfl h
  | param v => exact hatom _ rfl h
  | binary l op r ihl ihr => exact hsides (hbrackets.sign op) (ihl h.1) (ihr h.2)
  | isNull e negated ih =>
    have htest : IsBalanced brackets
        ([.word "IS"] ++ (if negated then [.word "NOT"] else []) ++ [.word "NULL"]) := by
      refine ((hword (by decide)).append ?_).append (hword (by decide))
      split
      · exact hword (by decide)
      · exact .nil
    have hall : IsClosed brackets isSeparator ([.sign "("] ++ (e.lexemes ++ _) ++ [.sign ")"]) :=
      .enclosed hbrackets.round ((ih h).isBalanced.append htest)
    simpa only [lexemes, List.append_assoc, List.cons_append, List.nil_append] using hall
  | not e ih =>
    have henclosed : IsClosed brackets isSeparator ([.sign "("] ++ e.lexemes ++ [.sign ")"]) :=
      .enclosed hbrackets.round (ih h).isBalanced
    exact (IsClosed.singleton (hbrackets.word "NOT" (by decide)) hnot).append henclosed
  | and l r ihl ihr => exact hsides (hbrackets.word "AND" (by decide)) (ihl h.1) (ihr h.2)
  | or l r ihl ihr => exact hsides (hbrackets.word "OR" (by decide)) (ihl h.1) (ihr h.2)
  | caseWhen c t f ihc iht ihf => exact hcase _ _ _ (ihc h.1) (iht h.2.1) (ihf h.2.2)
  | arrayGet a i iha ihi =>
    have hindex : IsClosed brackets isSeparator ([.sign "["] ++ i.lexemes ++ [.sign "]"]) :=
      .enclosed hbrackets.square (ihi h.2).isBalanced
    simpa only [lexemes, List.append_assoc] using (iha h.1).append hindex

def ownLexemes : List Lexeme :=
  [.sign "(", .sign ")", .sign "[", .sign "]", .word "IS", .word "NOT", .word "NULL", .word "AND",
    .word "OR", .word "CASE", .word "WHEN", .word "THEN", .word "ELSE", .word "END"] ++
    Operator.all.map fun op => .sign op.sign

/-- What holds of the pieces of a form, and is kept when they are put together, holds of everything
that is written for it. -/
theorem additive_lexemes {K : List Lexeme → Prop} (hK : IsAdditive K) {Numeral : String → Prop}
    {Name : QualifiedName → Prop} (hown : ∀ x ∈ ownLexemes, K [x]) (hnumber : ∀ s, K [.number s])
    (hquoted : ∀ s, K [.quoted '\'' s]) (hparam : ∀ v, K [.param v])
    (hname : ∀ name, Name name → K name.lexemes) {f : Form}
    (h : f.IsMadeOf Numeral Name) : K f.lexemes := by
  have hfixed {xs : List Lexeme} (hxs : ∀ x ∈ xs, x ∈ ownLexemes) : K xs :=
    hK.of_forall fun x hx => hown x (hxs x hx)
  have hsides {l r xs ys zs : List Lexeme} (hl : K l) (hr : K r)
      (hxs : ∀ x ∈ xs, x ∈ ownLexemes) (hys : ∀ x ∈ ys, x ∈ ownLexemes)
      (hzs : ∀ x ∈ zs, x ∈ ownLexemes) : K (xs ++ l ++ ys ++ r ++ zs) :=
    hK.append (hK.append (hK.append (hK.append (hfixed hxs) hl) (hfixed hys)) hr) (hfixed hzs)
  have hsign (op : Operator) : ∀ x ∈ [Lexeme.sign op.sign], x ∈ ownLexemes := by
    cases op <;> decide
  induction f with
  | number s =>
    rw [lexemes]
    unfold ofNumeral
    split
    · exact hK.append (hfixed (hsign .add)) (hnumber _)
    · exact hK.append (hfixed (hsign .sub)) (hnumber _)
    · exact hnumber s
  | text s => exact hquoted s
  | null => exact hfixed (by decide)
  | column name => exact hname name h
  | param v => exact hparam v
  | binary l op r ihl ihr => exact hsides (ihl h.1) (ihr h.2) (by decide) (hsign op) (by decide)
  | isNull e negated ih =>
    refine hK.append (hK.append (hfixed (by decide)) (ih h)) (hfixed ?_)
    cases negated <;> decide
  | not e ih => exact hK.append (hK.append (hfixed (by decide)) (ih h)) (hfixed (by decide))
  | and l r ihl ihr => exact hsides (ihl h.1) (ihr h.2) (by decide) (by decide) (by decide)
  | or l r ihl ihr => exact hsides (ihl h.1) (ihr h.2) (by decide) (by decide) (by decide)
  | caseWhen c t f ihc iht ihf =>
    have hbegun : K ([.word "CASE", .word "WHEN"] ++ c.lexemes ++ [.word "THEN"] ++ t.lexemes ++
        [.word "ELSE"]) := hsides (ihc h.1) (iht h.2.1) (by decide) (by decide) (by decide)
    exact hK.append (hK.append hbegun (ihf h.2.2)) (hfixed (by decide))
  | arrayGet a i iha ihi =>
    exact hK.append (hK.append (hK.append (iha h.1) (hfixed (by decide))) (ihi h.2))
      (hfixed (by decide))

end Form

namespace Expr

/-- The forms of an expression and of its negation. -/
structure Forms where
  plain : Result Form
  negated : Result Form

/-- The forms of an expression whose negation has no form of its own. -/
def Forms.ofPlain (plain : Result Form) : Forms := ⟨plain, plain.map .not⟩

def formBinary (left : Result Form) (op : Operator) (rightIsNull : Bool) (right : Result Form) :
    Result Form := do
  let left ← left
  match op, rightIsNull with
  | .eq, true => return .isNull left false
  | .ne, true => return .isNull left true
  | _, _ => return .binary left op (← right)

def formPair (build : Form → Form → Form) (left right : Result Form) : Result Form := do
  let left ← left
  return build left (← right)

def formNamed (columns : String → Option QualifiedName) (name : String) (value : Option Value) :
    Result Form :=
  match columns name, value with
  | some column, _ => .ok (.column column)
  | none, some v => .ok (.param v)
  | none, none => .error (.unmappedField (.unknownVariable name))

section Columns
variable (columns : String → Option QualifiedName)

def forms : Expr → Forms
  | number s => .ofPlain (.ok (.number s))
  | text s => .ofPlain (.ok (.text s))
  | null => .ofPlain (.ok .null)
  | named name value => .ofPlain (formNamed columns name value)
  | binary l op r =>
    if op = .ne ∧ r.isConstant "0" then l.forms
    else
      let written (op : Operator) := formBinary l.forms.plain op (r = null) r.forms.plain
      match op.reverse? with
      | some reversed => ⟨written op, written reversed⟩
      | none => .ofPlain (written op)
  | not e => ⟨e.forms.negated, e.forms.plain⟩
  | and l r => .ofPlain (formPair .and l.forms.plain r.forms.plain)
  | or l r => .ofPlain (formPair .or l.forms.plain r.forms.plain)
  | caseWhen c t f =>
    if t.isConstant "0" then
      if f.isConstant "1" then ⟨c.forms.negated, c.forms.plain⟩
      else .ofPlain (formPair .and c.forms.negated f.forms.plain)
    else if t.isConstant "1" && f.isConstant "0" then c.forms
    else .ofPlain do
      let condition ← c.forms.plain
      let ifTrue ← t.forms.plain
      let ifFalse ← f.forms.plain
      return .caseWhen condition ifTrue ifFalse
  | arrayGet a i => .ofPlain (formPair .arrayGet a.forms.plain i.forms.plain)

/-- The normal form of the expression. -/
def form (e : Expr) : Result Form := (e.forms columns).plain

/-- The rendering that writes both forms. -/
def Forms.rendering (w : Forms) : Rendering := ⟨w.plain.map Form.sql, w.negated.map Form.sql⟩

end Columns

@[simp] theorem rendering_ofPlain (x : Result Form) :
    (Forms.ofPlain x).rendering = .ofPlain (x.map Form.sql) := by
  cases x <;> rfl

@[simp] theorem renderBinary_map_sql (l : Result Form) (op : Operator) (rightIsNull : Bool)
    (r : Result Form) : renderBinary (l.map Form.sql) op rightIsNull (r.map Form.sql) =
      (formBinary l op rightIsNull r).map Form.sql := by
  cases l with
  | error e => rfl
  | ok left => cases op <;> cases rightIsNull <;> cases r <;> rfl

theorem renderLogical_map_sql {build : Form → Form → Form} {joiner : String}
    (hbuild : ∀ l r, (build l r).sql =
      Sql.text "(" ++ l.sql ++ Sql.text joiner ++ r.sql ++ Sql.text ")") (l r : Result Form) :
    renderLogical (l.map Form.sql) joiner (r.map Form.sql) = (formPair build l r).map Form.sql := by
  cases l with
  | error e => rfl
  | ok left =>
    cases r with
    | error e => rfl
    | ok right => exact congrArg Except.ok (hbuild left right).symm

section Columns
variable (columns : String → Option QualifiedName)

theorem renderNamed_eq_map (name : String) (value : Option Value) :
    renderNamed (fun n => (columns n).map QualifiedName.text) name value =
      (formNamed columns name value).map Form.sql := by
  unfold renderNamed formNamed
  dsimp only
  cases columns name with
  | some column => rfl
  | none => cases value <;> rfl

/-- Both sides of a rendering are the forms, written. -/
theorem rendering_eq_forms (e : Expr) :
    e.rendering (fun n => (columns n).map QualifiedName.text) = (e.forms columns).rendering := by
  induction e with
  | number s => rfl
  | text s => rfl
  | null => rfl
  | named name value => rw [rendering, forms, renderNamed_eq_map, rendering_ofPlain]
  | binary l op r ihl ihr =>
    rw [rendering, forms]
    simp only [ihl, ihr]
    split
    · rfl
    · cases op.reverse? with
      | some reversed => simp [Forms.rendering]
      | none =>
        rw [rendering_ofPlain]
        simp [Forms.rendering]
  | not e ih =>
    rw [rendering, forms]
    simp only [ih]
    rfl
  | and l r ihl ihr =>
    rw [rendering, forms, ihl, ihr, rendering_ofPlain]
    exact congrArg Rendering.ofPlain (renderLogical_map_sql (fun _ _ => rfl) _ _)
  | or l r ihl ihr =>
    rw [rendering, forms, ihl, ihr, rendering_ofPlain]
    exact congrArg Rendering.ofPlain (renderLogical_map_sql (fun _ _ => rfl) _ _)
  | caseWhen c t f ihc iht ihf =>
    rw [rendering, forms]
    simp only [ihc, iht, ihf]
    split
    · split
      · rfl
      · rw [rendering_ofPlain]
        exact congrArg Rendering.ofPlain (renderLogical_map_sql (fun _ _ => rfl) _ _)
    · split
      · rfl
      · rw [rendering_ofPlain]
        refine congrArg Rendering.ofPlain ?_
        simp only [Forms.rendering]
        cases (c.forms columns).plain with
        | error e => rfl
        | ok condition =>
          cases (t.forms columns).plain with
          | error e => rfl
          | ok ifTrue => cases (f.forms columns).plain <;> rfl
  | arrayGet a i iha ihi =>
    rw [rendering, forms, iha, ihi, rendering_ofPlain]
    refine congrArg Rendering.ofPlain ?_
    simp only [Forms.rendering]
    cases (a.forms columns).plain with
    | error e => rfl
    | ok array => cases (i.forms columns).plain <;> rfl

/-- What is written is the normal form; where there is none the error is the same. -/
theorem render_eq_form (e : Expr) :
    e.render (fun n => (columns n).map QualifiedName.text) = (e.form columns).map Form.sql := by
  rw [render, rendering_eq_forms]
  rfl

/-- The number constants are such as `Numeral` says. -/
def HasNumbers (Numeral : String → Prop) : Expr → Prop
  | number s => Numeral s
  | text _ | null | named _ _ => True
  | not e => e.HasNumbers Numeral
  | binary l _ r | and l r | or l r | arrayGet l r =>
    l.HasNumbers Numeral ∧ r.HasNumbers Numeral
  | caseWhen c t f => c.HasNumbers Numeral ∧ t.HasNumbers Numeral ∧ f.HasNumbers Numeral

theorem HasNumbers.mono {P Q : String → Prop} (hPQ : ∀ s, P s → Q s) {e : Expr}
    (h : e.HasNumbers P) : e.HasNumbers Q := by
  induction e with
  | number s => exact hPQ s h
  | text s => trivial
  | null => trivial
  | named name value => trivial
  | binary l op r ihl ihr => exact ⟨ihl h.1, ihr h.2⟩
  | not e ih => exact ih h
  | and l r ihl ihr => exact ⟨ihl h.1, ihr h.2⟩
  | or l r ihl ihr => exact ⟨ihl h.1, ihr h.2⟩
  | caseWhen c t f ihc iht ihf => exact ⟨ihc h.1, iht h.2.1, ihf h.2.2⟩
  | arrayGet a i iha ihi => exact ⟨iha h.1, ihi h.2⟩

section Made
variable {Numeral : String → Prop} {Name : QualifiedName → Prop}

def IsMade (Numeral : String → Prop) (Name : QualifiedName → Prop) (x : Result Form) : Prop :=
  ∀ f, x = .ok f → f.IsMadeOf Numeral Name

structure Forms.Made (Numeral : String → Prop) (Name : QualifiedName → Prop) (w : Forms) :
    Prop where
  plain : IsMade Numeral Name w.plain
  negated : IsMade Numeral Name w.negated

theorem isMade_ok {f : Form} (h : f.IsMadeOf Numeral Name) : IsMade Numeral Name (.ok f) := by
  intro g hg
  obtain rfl := Except.ok.inj hg
  exact h

theorem Forms.Made.ofPlain {x : Result Form} (h : IsMade Numeral Name x) :
    (Forms.ofPlain x).Made Numeral Name := by
  refine ⟨h, ?_⟩
  intro g hg
  obtain ⟨f, hf, rfl⟩ := Result.map_eq_ok_iff.mp hg
  exact h f hf

theorem isMade_formBinary {l r : Result Form} (hl : IsMade Numeral Name l)
    (hr : IsMade Numeral Name r) (op : Operator) (rightIsNull : Bool) :
    IsMade Numeral Name (formBinary l op rightIsNull r) := by
  intro f h
  obtain ⟨left, hleft, h⟩ := Result.bind_eq_ok_iff.mp h
  split at h
  · obtain rfl := Except.ok.inj h
    exact hl left hleft
  · obtain rfl := Except.ok.inj h
    exact hl left hleft
  · obtain ⟨right, hright, h⟩ := Result.bind_eq_ok_iff.mp h
    obtain rfl := Except.ok.inj h
    exact ⟨hl left hleft, hr right hright⟩

theorem isMade_formPair {build : Form → Form → Form} {l r : Result Form}
    (hbuild : ∀ left right, left.IsMadeOf Numeral Name → right.IsMadeOf Numeral Name →
      (build left right).IsMadeOf Numeral Name) (hl : IsMade Numeral Name l)
    (hr : IsMade Numeral Name r) : IsMade Numeral Name (formPair build l r) := by
  intro f h
  obtain ⟨left, hleft, h⟩ := Result.bind_eq_ok_iff.mp h
  obtain ⟨right, hright, h⟩ := Result.bind_eq_ok_iff.mp h
  obtain rfl := Except.ok.inj h
  exact hbuild left right (hl left hleft) (hr right hright)

variable (hcolumns : ∀ name column, columns name = some column → Name column)
include hcolumns

theorem isMade_formNamed (name : String) (value : Option Value) :
    IsMade Numeral Name (formNamed columns name value) := by
  unfold formNamed
  cases hcolumn : columns name with
  | some column => exact isMade_ok (hcolumns name column hcolumn)
  | none =>
    cases value with
    | some v => exact isMade_ok trivial
    | none => exact nofun

/-- Folding makes no numbers and no names. -/
theorem made_forms {e : Expr} (h : e.HasNumbers Numeral) :
    (e.forms columns).Made Numeral Name := by
  induction e with
  | number s => exact .ofPlain (isMade_ok h)
  | text s => exact .ofPlain (isMade_ok trivial)
  | null => exact .ofPlain (isMade_ok trivial)
  | named name value => exact .ofPlain (isMade_formNamed columns hcolumns name value)
  | binary l op r ihl ihr =>
    have hl := ihl h.1
    have hr := ihr h.2
    rw [forms]
    simp only
    split
    · exact hl
    · split
      · exact ⟨isMade_formBinary hl.plain hr.plain _ _, isMade_formBinary hl.plain hr.plain _ _⟩
      · exact .ofPlain (isMade_formBinary hl.plain hr.plain _ _)
  | not e ih => exact ⟨(ih h).negated, (ih h).plain⟩
  | and l r ihl ihr =>
    exact .ofPlain (isMade_formPair (fun _ _ hl hr => ⟨hl, hr⟩) (ihl h.1).plain (ihr h.2).plain)
  | or l r ihl ihr =>
    exact .ofPlain (isMade_formPair (fun _ _ hl hr => ⟨hl, hr⟩) (ihl h.1).plain (ihr h.2).plain)
  | caseWhen c t f ihc iht ihf =>
    have hc := ihc h.1
    have ht := iht h.2.1
    have hf := ihf h.2.2
    rw [forms]
    split
    · split
      · exact ⟨hc.negated, hc.plain⟩
      · exact .ofPlain (isMade_formPair (fun _ _ hl hr => ⟨hl, hr⟩) hc.negated hf.plain)
    · split
      · exact hc
      · refine .ofPlain ?_
        intro form h
        obtain ⟨condition, hcondition, h⟩ := Result.bind_eq_ok_iff.mp h
        obtain ⟨ifTrue, hifTrue, h⟩ := Result.bind_eq_ok_iff.mp h
        obtain ⟨ifFalse, hifFalse, h⟩ := Result.bind_eq_ok_iff.mp h
        obtain rfl := Except.ok.inj h
        exact ⟨hc.plain _ hcondition, ht.plain _ hifTrue, hf.plain _ hifFalse⟩
  | arrayGet a i iha ihi =>
    exact .ofPlain (isMade_formPair (fun _ _ ha hi => ⟨ha, hi⟩) (iha h.1).plain (ihi h.2).plain)

theorem isMadeOf_form {e : Expr} (h : e.HasNumbers Numeral) {f : Form}
    (hf : e.form columns = .ok f) : f.IsMadeOf Numeral Name :=
  (made_forms columns hcolumns h).plain f hf

end Made

end Columns

end Expr

end RecordMapper
