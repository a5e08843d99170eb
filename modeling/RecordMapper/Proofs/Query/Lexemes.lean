import RecordMapper.Proofs.Dialect.Paging
import RecordMapper.Proofs.Expr.Reading
import RecordMapper.Proofs.Statement.Section

/-!
# The lexemes of conditions

Columns and tables are names. A condition is a form, or stands in parentheses of its own. So it is
cut in the same way wherever it is written, and nothing outside its brackets joins it with others.
The numbers of expressions are numerals; everything else is whatever it is.
-/

set_option autoImplicit false

namespace RecordMapper

open Lexeme

theorem Text.toUpper_of_isDigit {c : Char} (h : Numeral.isDigit c = true) : c.toUpper = c := by
  have hrange : 48 ≤ c.toNat ∧ c.toNat ≤ 57 := by
    simpa [Numeral.isDigit, Char.le_def, UInt32.le_iff_toNat_le] using h
  have hlower : ¬ (c.val ≥ 'a'.val ∧ c.val ≤ 'z'.val) := by
    rintro ⟨hge, -⟩
    have hlow : 97 ≤ c.toNat := by simpa [UInt32.le_iff_toNat_le] using hge
    omega
  unfold Char.toUpper
  rw [dif_neg hlower]

/-- What the table in the position is called in a statement on several tables. -/
def tableAlias (i : Nat) : String := "T" ++ Numeral.ofNat (i + 1)

theorem tableAlias_inj {i j : Nat} (h : tableAlias i = tableAlias j) : i = j := by
  have hlist : (tableAlias i).toList = (tableAlias j).toList := congrArg String.toList h
  rw [tableAlias, tableAlias, String.toList_append, String.toList_append] at hlist
  have hnumbers : Numeral.ofNat (i + 1) = Numeral.ofNat (j + 1) :=
    String.toList_inj.mp (List.append_cancel_left hlist)
  have hread := congrArg Page.number? hnumbers
  rw [Page.number?_ofNat, Page.number?_ofNat] at hread
  exact Nat.succ.inj (Option.some.inj hread)

theorem exists_digit_of_tableAlias (i : Nat) :
    ∃ c ∈ (tableAlias i).toList, Numeral.isDigit c = true := by
  cases hn : (Numeral.ofNat (i + 1)).toList with
  | nil => exact absurd hn (SqlText.ofNat_ne_nil _)
  | cons c cs =>
    have hmem : c ∈ (Numeral.ofNat (i + 1)).toList := by
      rw [hn]
      exact List.mem_cons_self
    refine ⟨c, ?_, Numeral.isDigit_of_mem_ofNat hmem⟩
    rw [tableAlias, String.toList_append]
    exact List.mem_append_right _ hmem

/-- No word without digits is read as the name of a table. -/
theorem upper_tableAlias_notMem (i : Nat) {words : List String}
    (hwords : (words.all fun k => k.toList.all fun c => !Numeral.isDigit c) = true) :
    Text.upper (tableAlias i) ∉ words := by
  intro hmem
  have hword := List.all_eq_true.mp hwords _ hmem
  obtain ⟨c, hc, hdigit⟩ := exists_digit_of_tableAlias i
  have hupper : c ∈ (Text.upper (tableAlias i)).toList := by
    rw [Text.upper, String.toList_ofList, ← Text.toUpper_of_isDigit hdigit]
    exact List.mem_map_of_mem hc
  have hother := List.all_eq_true.mp hword c hupper
  rw [hdigit] at hother
  cases hother

@[simp] theorem isRegular_tableAlias (i : Nat) : isRegular (tableAlias i).toList = true := by
  rw [tableAlias, String.toList_append]
  change (isWordStart 'T' && (Numeral.ofNat (i + 1)).toList.all isWordPart) = true
  rw [Bool.and_eq_true]
  refine ⟨rfl, List.all_eq_true.mpr fun c hc => ?_⟩
  rw [isWordPart, Numeral.isDigit_of_mem_ofNat hc, Bool.or_true]

theorem isValid_tableAlias (i : Nat) : (NamePart.regular (tableAlias i)).IsValid :=
  ⟨isRegular_tableAlias i, upper_tableAlias_notMem i rfl⟩

@[simp] theorem beginsSection_tableAlias (i : Nat) : beginsSection (.word (tableAlias i)) = false :=
  decide_eq_false (upper_tableAlias_notMem i rfl)

theorem isNumeral_ofNat (n : Nat) : IsNumeral (Numeral.ofNat n) := by
  have hall : ∀ c ∈ (Numeral.ofNat n).toList, Numeral.isDigit c = true :=
    fun _ h => Numeral.isDigit_of_mem_ofNat h
  have haccepts {cs : List Char} (h : ∀ c ∈ cs, Numeral.isDigit c = true) :
      NumeralPart.accepts .whole cs = true := by
    induction cs with
    | nil => rfl
    | cons c cs ih =>
      rw [NumeralPart.accepts, NumeralPart.next?, if_pos (h c List.mem_cons_self)]
      exact ih fun x hx => h x (List.mem_cons_of_mem c hx)
  rw [IsNumeral]
  cases hn : (Numeral.ofNat n).toList with
  | nil => exact absurd hn (SqlText.ofNat_ne_nil n)
  | cons c cs =>
    rw [hn] at hall
    rw [NumeralPart.accepts, NumeralPart.next?, if_pos (hall c List.mem_cons_self)]
    exact haccepts fun x hx => hall x (List.mem_cons_of_mem c hx)

namespace Dialect

def namePart (d : Dialect) (name : String) : NamePart := .delimited d.identifierMark name

/-- The name of a table, with its schema if it has one. -/
def tablePath (d : Dialect) (t : Table) : QualifiedName :=
  match t.schema with
  | some schema => ⟨d.namePart schema, [d.namePart t.name]⟩
  | none => ⟨d.namePart t.name, []⟩

@[simp] theorem text_tablePath (d : Dialect) (t : Table) :
    (d.tablePath t).text = d.tableName t := by
  unfold tablePath tableName QualifiedName.text
  cases t.schema with
  | none => exact String.append_empty
  | some schema =>
    simp only [QualifiedName.pointed, String.append_empty, String.append_assoc]
    rfl

/-- Identifiers stand in quotes that are not those of texts, and a limit is a number. -/
structure Delimits (d : Dialect) : Prop where
  mark : SqlText.isQuote d.identifierMark = true
  notText : d.identifierMark ≠ '\''
  everything : ∀ n, d.paging = .limitFirst n → IsSignedNumeral n

theorem delimits_ofProduct (p : Product) (version : ProductVersion) :
    (ofProduct p version).Delimits := by
  have hmark := (orderly_ofProduct p version).mark
  have hdouble : '"' ≠ '\'' := by decide
  cases p with
  | generic => exact ⟨hmark, hdouble, nofun⟩
  | h2 => exact ⟨hmark, hdouble, nofun⟩
  | mySql =>
    have hback : Char.ofNat 96 ≠ '\'' := by decide
    refine ⟨hmark, hback, ?_⟩
    rintro _ ⟨⟩
    decide
  | postgreSql => exact ⟨hmark, hdouble, nofun⟩
  | sqlite =>
    refine ⟨hmark, hdouble, ?_⟩
    rintro _ ⟨⟩
    decide
  | derby =>
    refine ⟨hmark, hdouble, ?_⟩
    intro n h
    simp only [ofProduct, derby] at h
    split at h <;> cases h

section Names
variable {d : Dialect} (hd : d.Delimits)
include hd

theorem Delimits.isValid_namePart (name : String) : (d.namePart name).IsValid :=
  ⟨hd.mark, hd.notText⟩

theorem Delimits.isValid_tablePath (t : Table) : (d.tablePath t).IsValid := by
  unfold tablePath
  cases t.schema with
  | none => exact ⟨hd.isValid_namePart _, List.forall_mem_nil _⟩
  | some schema =>
    exact ⟨hd.isValid_namePart _, List.forall_mem_singleton.mpr (hd.isValid_namePart _)⟩

end Names

/-- A table is named without qualifiers. -/
theorem isBody_tablePath {Q : String → Prop} (d : Dialect) (t : Table) :
    IsBody Q (d.tablePath t).lexemes := by
  unfold tablePath
  cases t.schema with
  | none => exact .quoted d.identifierMark t.name
  | some schema =>
    refine ⟨?_, by simp [QualifiedName.lexemes, namePart, NamePart.lexeme], List.forall_mem_nil _⟩
    intro x hx
    rcases List.mem_cons.mp hx with rfl | hx
    · rfl
    · rcases List.mem_cons.mp hx with rfl | hx
      · rfl
      · obtain rfl := List.mem_singleton.mp hx
        rfl

end Dialect

namespace Scope

/-- The name of the column in the scope. -/
def name (s : Scope) (p : ColumnPosition) : QualifiedName :=
  let column := s.dialect.namePart (s.columnName p)
  if s.qualified then ⟨.regular (tableAlias p.table), [column]⟩ else ⟨column, []⟩

@[simp] theorem text_name (s : Scope) (p : ColumnPosition) : (s.name p).text = s.column p := by
  unfold name column QualifiedName.text
  dsimp only
  split
  · simp only [QualifiedName.pointed, String.append_empty, String.append_assoc]
    rfl
  · exact String.append_empty

def names (s : Scope) (name : String) : Option QualifiedName :=
  (findFrom name 0 s.tables).map s.name

theorem named?_eq (s : Scope) : s.named? = fun n => (s.names n).map QualifiedName.text := by
  funext n
  rw [named?, names, Option.map_map]
  exact congrArg (fun f => (findFrom n 0 s.tables).map f) (funext fun p => (s.text_name p).symm)

/-- The column is written without the name of a table other than `Q` says. -/
def Admits (s : Scope) (Q : String → Prop) (p : ColumnPosition) : Prop :=
  s.qualified = true → Q (tableAlias p.table)

/-- A name that conditions hold. -/
structure IsName (Q : String → Prop) (name : QualifiedName) : Prop where
  valid : name.IsValid
  body : IsBody Q name.lexemes

theorem isName_name {s : Scope} {Q : String → Prop} (hd : s.dialect.Delimits) {p : ColumnPosition}
    (h : s.Admits Q p) : IsName Q (s.name p) := by
  have hcolumn := hd.isValid_namePart (s.columnName p)
  unfold name
  dsimp only
  split
  · next hqualified =>
    refine ⟨⟨isValid_tableAlias p.table, List.forall_mem_singleton.mpr hcolumn⟩, ?_, ?_, ?_⟩
    · intro x hx
      rcases List.mem_cons.mp hx with rfl | hx
      · exact beginsSection_tableAlias p.table
      · rcases List.mem_cons.mp hx with rfl | hx
        · rfl
        · obtain rfl := List.mem_singleton.mp hx
          rfl
    · simp [QualifiedName.lexemes, NamePart.lexeme]
    · exact List.forall_mem_singleton.mpr (h hqualified)
  · exact ⟨⟨hcolumn, List.forall_mem_nil _⟩, .quoted s.dialect.identifierMark (s.columnName p)⟩

end Scope

theorem Lexeme.isClosed_ofNumeral (s : String) : IsClosed .round isConnective (ofNumeral s) := by
  unfold ofNumeral
  split
  · exact .append (a := [.sign "+"]) (.singleton ⟨rfl, rfl⟩ rfl) (.singleton ⟨rfl, rfl⟩ rfl)
  · exact .append (a := [.sign "-"]) (.singleton ⟨rfl, rfl⟩ rfl) (.singleton ⟨rfl, rfl⟩ rfl)
  · exact .singleton ⟨rfl, rfl⟩ rfl

/-- A name holds no connective, since it may not be a keyword without its quotes. -/
theorem QualifiedName.isClosed {name : QualifiedName} (h : name.IsValid) :
    IsClosed .round isConnective name.lexemes := by
  refine .of_forall (QualifiedName.forall_mem_lexemes h ?_ ⟨by decide, by decide⟩)
  intro part hpart
  cases part with
  | delimited quote s => exact ⟨⟨rfl, rfl⟩, rfl⟩
  | regular s =>
    have hne {k : String} (hk : k ∈ NamePart.keywords) : Text.upper s ≠ k := by
      rintro rfl
      exact hpart.2 hk
    refine ⟨⟨rfl, rfl⟩, ?_⟩
    simp [NamePart.lexeme, isConnective, isWord, hne (k := "AND") (by decide),
      hne (k := "OR") (by decide)]

theorem QualifiedName.unclosed_notMem {name : QualifiedName} (h : name.IsValid) (quote : Char) :
    .unclosed quote ∉ name.lexemes := by
  have hpart (part : NamePart) : part.lexeme ≠ .unclosed quote := by
    cases part <;> simp [NamePart.lexeme]
  have hall : ∀ x ∈ name.lexemes, x ≠ .unclosed quote :=
    QualifiedName.forall_mem_lexemes h (fun part _ => hpart part) (by simp)
  intro hmem
  exact hall _ hmem rfl

namespace Form

/-- A form leaves no quote open. -/
theorem unclosed_notMem {f : Form} (h : f.IsLegible IsSignedNumeral) (quote : Char) :
    .unclosed quote ∉ f.lexemes := by
  have hadditive : IsAdditive fun a => Lexeme.unclosed quote ∉ a :=
    ⟨List.not_mem_nil, fun ha hb hmem => (List.mem_append.mp hmem).elim ha hb⟩
  have hsingle {x : Lexeme} (hx : x ≠ .unclosed quote) : Lexeme.unclosed quote ∉ [x] :=
    fun hmem => hx (List.mem_singleton.mp hmem).symm
  have hown : ∀ x ∈ ownLexemes, ∃ s, x = .word s ∨ x = .sign s := by
    simp [ownLexemes]
  refine additive_lexemes hadditive ?_ (fun s => hsingle (by simp)) (fun s => hsingle (by simp))
    (fun v => hsingle (by simp)) (fun name hname => QualifiedName.unclosed_notMem hname quote) h
  intro x hx
  obtain ⟨s, rfl | rfl⟩ := hown x hx
  · exact hsingle (by simp)
  · exact hsingle (by simp)

/-- A form is closed to what stands around it. -/
theorem isSelfContained {f : Form} (h : f.IsLegible IsSignedNumeral) :
    IsSelfContained f.lexemes := by
  refine ⟨isClosed_lexemes Brackets.suitForms_round rfl ?_ ?_ h, unclosed_notMem h⟩
  · intro f hatom hf
    cases f with
    | number s => exact isClosed_ofNumeral s
    | text s => exact .singleton ⟨rfl, rfl⟩ rfl
    | null => exact .singleton ⟨rfl, rfl⟩ rfl
    | column name => exact QualifiedName.isClosed hf
    | param v => exact .singleton ⟨rfl, rfl⟩ rfl
    | _ => cases hatom
  · intro c t f hc ht hf
    have hcase : IsClosed .round isConnective [.word "CASE", .word "WHEN"] :=
      .of_forall (by decide)
    have hthen : IsClosed .round isConnective [.word "THEN"] := .of_forall (by decide)
    have helse : IsClosed .round isConnective [.word "ELSE"] := .of_forall (by decide)
    have hend : IsClosed .round isConnective [.word "END"] := .of_forall (by decide)
    have hbegun := (((hcase.append hc).append hthen).append ht).append helse
    exact (hbegun.append hf).append hend

/-- In a form no section begins, and its qualifiers are those of its columns. -/
theorem isBody {Q : String → Prop} {f : Form} (h : f.IsMadeOf IsSignedNumeral (Scope.IsName Q)) :
    IsBody Q f.lexemes := by
  have hown : ∀ x ∈ ownLexemes, x.beginsSection = false ∧ x ≠ .sign "." := by decide
  refine additive_lexemes (isAdditive_isBody Q) ?_ .number (.quoted '\'') .param
    (fun name hname => hname.body) h
  intro x hx
  exact .singleton (hown x hx).1 (hown x hx).2

end Form

/-- The numbers of an expression are numerals. -/
def Predicate.HasNumerals (p : Predicate) : Prop := ∀ e, p = .expr e → e.HasNumbers IsSignedNumeral

def Operand.Mentions (P : ColumnPosition → Prop) : Operand → Prop
  | .column p => P p
  | .value _ => True

/-- The columns of the condition are such as `P` says. Those of an expression have no positions as
long as it is not written. -/
def Predicate.Mentions (P : ColumnPosition → Prop) : Predicate → Prop
  | .compare left _ right => left.Mentions P ∧ right.Mentions P
  | .like operand _ => operand.Mentions P
  | .between operand low high => operand.Mentions P ∧ low.Mentions P ∧ high.Mentions P
  | .isNull operand _ => operand.Mentions P
  | .expr _ => True

section Mentions
variable {P P' : ColumnPosition → Prop} (hP : ∀ position, P position → P' position)
include hP

theorem Operand.Mentions.mono {o : Operand} (h : o.Mentions P) : o.Mentions P' := by
  cases o with
  | column position => exact hP position h
  | value v => trivial

theorem Predicate.Mentions.mono {p : Predicate} (h : p.Mentions P) : p.Mentions P' := by
  cases p with
  | compare left op right => exact ⟨h.1.mono hP, h.2.mono hP⟩
  | like operand pattern => exact Operand.Mentions.mono hP h
  | between operand low high => exact ⟨h.1.mono hP, h.2.1.mono hP, h.2.2.mono hP⟩
  | isNull operand negated => exact Operand.Mentions.mono hP h
  | expr e => trivial

end Mentions

/-- What may stand in parentheses. -/
structure Lexeme.IsInner (Q : String → Prop) (a : List Lexeme) : Prop where
  balanced : IsBalanced .round a
  quotes : ∀ quote, .unclosed quote ∉ a
  body : IsBody Q a

theorem Lexeme.IsInner.append {Q : String → Prop} {a b : List Lexeme} (ha : IsInner Q a)
    (hb : IsInner Q b) : IsInner Q (a ++ b) := by
  refine ⟨ha.balanced.append hb.balanced, ?_, (isAdditive_isBody Q).append ha.body hb.body⟩
  intro quote hmem
  rcases List.mem_append.mp hmem with hmem | hmem
  · exact ha.quotes quote hmem
  · exact hb.quotes quote hmem

/-- The text of a condition is cut in one way wherever it stands, and stands by itself. -/
structure Sql.IsCondition (Q : String → Prop) (sql : Sql) : Prop where
  spells : Spells sql.atoms sql.lexemes
  selfContained : IsSelfContained sql.lexemes
  body : IsBody Q sql.lexemes

namespace Sql
variable {Q : String → Prop} {sql : Sql}

theorem IsCondition.of_atoms_eq {other : Sql} (h : other.IsCondition Q)
    (hatoms : sql.atoms = other.atoms) : sql.IsCondition Q := by
  have hlexemes : sql.lexemes = other.lexemes := congrArg (Lexeme.scanner.read .outside) hatoms
  refine ⟨?_, ?_, ?_⟩
  · rw [hatoms, hlexemes]
    exact h.spells
  · rw [hlexemes]
    exact h.selfContained
  · rw [hlexemes]
    exact h.body

theorem IsCondition.form {f : Form} (h : f.IsMadeOf IsSignedNumeral (Scope.IsName Q)) :
    f.sql.IsCondition Q := by
  have hlegible : f.IsLegible IsSignedNumeral := h.mono (fun _ hs => hs) fun _ hname => hname.valid
  have hspells := Form.spells hlegible
  have hlexemes : f.sql.lexemes = f.lexemes := hspells.read_eq
  refine ⟨?_, ?_, ?_⟩
  · rw [hlexemes]
    exact hspells
  · rw [hlexemes]
    exact Form.isSelfContained hlegible
  · rw [hlexemes]
    exact Form.isBody h

theorem IsCondition.enclosed {inner : List Lexeme}
    (hspells : Delimited sql.atoms ([.sign "("] ++ inner ++ [.sign ")"]))
    (hinner : IsInner Q inner) : sql.IsCondition Q := by
  have hlexemes : sql.lexemes = [.sign "("] ++ inner ++ [.sign ")"] := hspells.spells.read_eq
  refine ⟨?_, ⟨?_, ?_⟩, ?_⟩
  · rw [hlexemes]
    exact hspells.spells
  · rw [hlexemes]
    exact .enclosed Brackets.suitForms_round.round hinner.balanced
  · rw [hlexemes]
    intro quote hmem
    rw [List.append_assoc] at hmem
    rcases List.mem_append.mp hmem with hmem | hmem
    · cases List.mem_singleton.mp hmem
    · rcases List.mem_append.mp hmem with hmem | hmem
      · exact hinner.quotes quote hmem
      · cases List.mem_singleton.mp hmem
  · rw [hlexemes]
    have hopen : IsBody Q [.sign "("] := .sign (by decide)
    have hclose : IsBody Q [.sign ")"] := .sign (by decide)
    exact (isAdditive_isBody Q).append ((isAdditive_isBody Q).append hopen hinner.body) hclose

end Sql

namespace Scope

/-- The operand as an expression. -/
def operandForm (s : Scope) : Operand → Form
  | .column p => .column (s.name p)
  | .value v => .param v

@[simp] theorem sql_operandForm (s : Scope) (o : Operand) :
    (s.operandForm o).sql = s.operand o := by
  cases o with
  | column p => exact congrArg Sql.text (s.text_name p)
  | value v => rfl

section Conditions
variable {s : Scope} {Q : String → Prop} (hd : s.dialect.Delimits)
include hd

theorem isMadeOf_operandForm {o : Operand} (h : o.Mentions (s.Admits Q)) :
    (s.operandForm o).IsMadeOf IsSignedNumeral (IsName Q) := by
  cases o with
  | column p => exact isName_name hd h
  | value v => trivial

theorem spells_operand {o : Operand} (h : o.Mentions (s.Admits Q)) :
    Spells (s.operand o).atoms (s.operandForm o).lexemes := by
  have hmade := isMadeOf_operandForm hd h
  rw [← sql_operandForm]
  exact Form.spells (hmade.mono (fun _ hs => hs) fun _ hname => hname.valid)

theorem isInner_operand {o : Operand} (h : o.Mentions (s.Admits Q)) :
    IsInner Q (s.operandForm o).lexemes := by
  have hmade := isMadeOf_operandForm hd h
  have hself := Form.isSelfContained (hmade.mono (fun _ hs => hs) fun _ hname => hname.valid)
  exact ⟨hself.closed.isBalanced, hself.quotes, Form.isBody hmade⟩

omit hd in
theorem isInner_word {w : String} (hw : w ∈ ["LIKE", "BETWEEN", "AND"]) :
    IsInner Q [.word w] := by
  refine ⟨.singleton ⟨rfl, rfl⟩, fun quote hmem => ?_, .word ?_⟩
  · cases List.mem_singleton.mp hmem
  · revert w
    decide

theorem isCondition_compare {left right : Operand} {op : Operator}
    (hleft : left.Mentions (s.Admits Q)) (hright : right.Mentions (s.Admits Q)) {sql : Sql}
    (h : s.predicate (.compare left op right) = .ok sql) : sql.IsCondition Q := by
  have hmade := isMadeOf_operandForm hd hleft
  obtain rfl := Except.ok.inj h
  split
  · have hform : (Form.isNull (s.operandForm left) false).sql.IsCondition Q :=
      Sql.IsCondition.form hmade
    refine hform.of_atoms_eq ?_
    simp only [Form.sql, sql_operandForm, Sql.atoms_append, Sql.atoms_text, List.append_assoc]
    rfl
  · have hform : (Form.isNull (s.operandForm left) true).sql.IsCondition Q :=
      Sql.IsCondition.form hmade
    refine hform.of_atoms_eq ?_
    simp only [Form.sql, sql_operandForm, Sql.atoms_append, Sql.atoms_text, List.append_assoc]
    rfl
  · have hform : (Form.binary (s.operandForm left) op (s.operandForm right)).sql.IsCondition Q :=
      Sql.IsCondition.form ⟨hmade, isMadeOf_operandForm hd hright⟩
    refine hform.of_atoms_eq ?_
    simp [Form.sql]

theorem isCondition_isNull {operand : Operand} {negated : Bool}
    (hmentions : operand.Mentions (s.Admits Q)) {sql : Sql}
    (h : s.predicate (.isNull operand negated) = .ok sql) : sql.IsCondition Q := by
  obtain rfl := Except.ok.inj h
  have hform : (Form.isNull (s.operandForm operand) negated).sql.IsCondition Q :=
    Sql.IsCondition.form (isMadeOf_operandForm hd hmentions)
  rw [Form.sql, sql_operandForm] at hform
  exact hform

theorem isCondition_like {operand : Operand} {pattern : String}
    (hmentions : operand.Mentions (s.Admits Q)) {sql : Sql}
    (h : s.predicate (.like operand pattern) = .ok sql) : sql.IsCondition Q := by
  obtain rfl := Except.ok.inj h
  have hopen : Delimited (Sql.chars "(") [.sign "("] := fun _ => rfl
  have hlike : Delimited (Sql.chars " LIKE ") [.word "LIKE"] := fun _ => rfl
  have hclose : Delimited (Sql.chars ")") [.sign ")"] := fun _ => rfl
  have hpattern : Operand.Mentions (s.Admits Q) (.value (.text pattern)) := trivial
  have hspells : Delimited (Sql.text "(" ++ s.operand operand ++ Sql.text " LIKE " ++
      Sql.param (.text pattern) ++ Sql.text ")").atoms _ :=
    Form.delimited_sides (spells_operand hd hmentions) (spells_operand hd hpattern) hopen hlike
      hclose rfl rfl rfl rfl
  have hinner := ((isInner_operand hd hmentions).append
    (isInner_word (w := "LIKE") (by decide))).append (isInner_operand hd hpattern)
  exact .enclosed (by simpa only [List.append_assoc] using hspells) hinner

theorem isCondition_between {operand low high : Operand}
    (hoperand : operand.Mentions (s.Admits Q)) (hlow : low.Mentions (s.Admits Q))
    (hhigh : high.Mentions (s.Admits Q)) {sql : Sql}
    (h : s.predicate (.between operand low high) = .ok sql) : sql.IsCondition Q := by
  obtain rfl := Except.ok.inj h
  have hopen : Delimited (Sql.chars "(") [.sign "("] := fun _ => rfl
  have hbetween : Delimited (Sql.chars " BETWEEN ") [.word "BETWEEN"] := fun _ => rfl
  have hand : Delimited (Sql.chars " AND ") [.word "AND"] := fun _ => rfl
  have hclose : Delimited (Sql.chars ")") [.sign ")"] := fun _ => rfl
  have hbegun := Form.delimited_sides (spells_operand hd hoperand) (spells_operand hd hlow) hopen
    hbetween hand rfl rfl rfl rfl
  have hspells := (hbegun.append_spells (spells_operand hd hhigh)).append_delimited hclose rfl rfl
  rw [← Sql.atoms_text ")", ← Sql.atoms_append, ← Sql.atoms_append] at hspells
  have hsides := ((isInner_operand hd hoperand).append
    (isInner_word (w := "BETWEEN") (by decide))).append (isInner_operand hd hlow)
  have hinner := (hsides.append (isInner_word (w := "AND") (by decide))).append
    (isInner_operand hd hhigh)
  exact .enclosed (by simpa only [List.append_assoc] using hspells) hinner

theorem isCondition_expr {e : Expr} (hnumerals : e.HasNumbers IsSignedNumeral)
    (hnamed : ∀ n position, findFrom n 0 s.tables = some position → s.Admits Q position)
    {sql : Sql} (h : s.predicate (.expr e) = .ok sql) : sql.IsCondition Q := by
  have hrender : e.render (fun n => (s.names n).map QualifiedName.text) = .ok sql := by
    rw [← named?_eq]
    exact h
  rw [Expr.render_eq_form] at hrender
  obtain ⟨f, hf, rfl⟩ := Result.map_eq_ok_iff.mp hrender
  refine Sql.IsCondition.form (Expr.isMadeOf_form s.names ?_ hnumerals hf)
  intro n column hcolumn
  obtain ⟨position, hposition, rfl⟩ := Option.map_eq_some_iff.mp hcolumn
  exact isName_name hd (hnamed n position hposition)

/-- What is written for a condition is a condition: comparisons and tests are forms, the others
stand in parentheses. -/
theorem isCondition_predicate {p : Predicate} (hnumbers : p.HasNumerals)
    (hmentions : p.Mentions (s.Admits Q))
    (hnamed : ∀ e, p = .expr e → ∀ n position, findFrom n 0 s.tables = some position →
      s.Admits Q position)
    {sql : Sql} (h : s.predicate p = .ok sql) : sql.IsCondition Q := by
  cases p with
  | compare left op right => exact isCondition_compare hd hmentions.1 hmentions.2 h
  | like operand pattern => exact isCondition_like hd hmentions h
  | between operand low high =>
    exact isCondition_between hd hmentions.1 hmentions.2.1 hmentions.2.2 h
  | isNull operand negated => exact isCondition_isNull hd hmentions h
  | expr e => exact isCondition_expr hd (hnumbers e rfl) (hnamed e rfl) h

end Conditions

end Scope

end RecordMapper
