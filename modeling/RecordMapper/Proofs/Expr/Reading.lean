import RecordMapper.Proofs.Expr.Inversion
import RecordMapper.Proofs.Query.Tidy

/-!
# Reading expressions back

The SQL of an expression is read by the grammar as its normal form, unless a negation stands in it
as an operand: every other operator is enclosed in parentheses of its own, but `NOT` binds more
loosely than the comparison, the arithmetic or the subscript in which its SQL is put.
-/

set_option autoImplicit false

namespace RecordMapper

namespace Form

def isNegation : Form → Bool
  | not _ => true
  | _ => false

/-- No negation stands as an operand: on a side of a comparison or of arithmetic, in a test for
`NULL`, or as the array that an element is taken of. -/
def IsEnclosed : Form → Prop
  | number _ | text _ | null | column _ | param _ => True
  | binary l _ r => (l.isNegation = false ∧ r.isNegation = false) ∧ l.IsEnclosed ∧ r.IsEnclosed
  | isNull e _ => e.isNegation = false ∧ e.IsEnclosed
  | not e => e.IsEnclosed
  | and l r | or l r => l.IsEnclosed ∧ r.IsEnclosed
  | caseWhen c t f => c.IsEnclosed ∧ t.IsEnclosed ∧ f.IsEnclosed
  | arrayGet a i => a.isNegation = false ∧ a.IsEnclosed ∧ i.IsEnclosed

/-- The level on which the SQL of the form is read. -/
def level (f : Form) : Level := if f.isNegation then .negation else .element

open Lexeme Reads

theorem level_of_isNegation {f : Form} (h : f.isNegation = false) : f.level = .element := by
  rw [level, h]
  rfl

/-- Every form is read where an operand of `AND` is expected. -/
theorem two_le_rank_level (f : Form) : Level.negation.rank ≤ f.level.rank := by
  rw [level]
  split <;> decide

/-- By induction on the form: what stands in parentheses is read by itself, and an operand that is
no negation is read on the level of elements, below every operator. -/
theorem reads {f : Form} (hlegible : f.IsLegible IsNumeral) (h : f.IsEnclosed)
    (rest : List Lexeme) : Reads (.whole f.level) (f.lexemes ++ rest) f rest := by
  have hatom {f : Form} {input rest : List Lexeme} (h : Reads (.whole .atom) input f rest) :
      Reads (.whole .element) input f rest := h.loosen (by decide)
  have hloose {f g : Form} {input rest : List Lexeme} (h : Reads (.whole g.level) input f rest) :
      Reads (.whole .disjunction) input f rest := h.loosen (Nat.zero_le _)
  induction f generalizing rest with
  | number s =>
    rw [lexemes, hlegible.unsigned.2]
    exact hatom .number
  | text s => exact hatom .text
  | null => exact hatom .null
  | column name => exact hatom (.column hlegible rfl)
  | param v => exact hatom .param
  | binary l op r ihl ihr =>
    obtain ⟨⟨hl, hr⟩, hlenclosed, hrenclosed⟩ := h
    have hleft := ihl hlegible.1 hlenclosed
    have hright := ihr hlegible.2 hrenclosed
    rw [level_of_isNegation hl] at hleft
    rw [level_of_isNegation hr] at hright
    have hlevel : op.level.rank ≤ Level.element.rank ∧
        op.level.tighter.rank ≤ Level.element.rank := by
      cases op <;> decide
    simp only [lexemes, List.cons_append, List.nil_append, List.append_assoc]
    exact hatom (.parenthesised (joined (joint?_sign op) ((hleft _).loosen hlevel.1)
      ((hright _).loosen hlevel.2)))
  | isNull e negated ih =>
    have hoperand := ih hlegible h.2
    rw [level_of_isNegation h.1] at hoperand
    have hcomparison (rest : List Lexeme) : Reads (.whole .comparison) (e.lexemes ++ rest) e rest :=
      (hoperand rest).loosen (by decide)
    simp only [lexemes, List.cons_append, List.nil_append, List.append_assoc]
    refine hatom (.parenthesised (loosen (l := .comparison) ?_ (Nat.zero_le _)))
    refine extend (l := .comparison) ⟨by decide, by decide⟩ (hcomparison _) ?_
    cases negated with
    | false => exact .isNull .done
    | true => exact .isNotNull .done
  | not e ih =>
    simp only [lexemes, List.cons_append, List.nil_append, List.append_assoc]
    refine Reads.not (loosen (l := .atom) ?_ (by decide))
    exact .parenthesised (hloose (ih hlegible h _))
  | and l r ihl ihr =>
    have hleft (rest : List Lexeme) : Reads (.whole .conjunction) (l.lexemes ++ rest) l rest :=
      (ihl hlegible.1 h.1 rest).loosen (Nat.le_trans (by decide) (two_le_rank_level l))
    have hright (rest : List Lexeme) : Reads (.whole .negation) (r.lexemes ++ rest) r rest :=
      (ihr hlegible.2 h.2 rest).loosen (two_le_rank_level r)
    simp only [lexemes, List.cons_append, List.nil_append, List.append_assoc]
    exact hatom (.parenthesised (joined rfl (hleft _) (hright _)))
  | or l r ihl ihr =>
    have hright (rest : List Lexeme) : Reads (.whole .conjunction) (r.lexemes ++ rest) r rest :=
      (ihr hlegible.2 h.2 rest).loosen (Nat.le_trans (by decide) (two_le_rank_level r))
    simp only [lexemes, List.cons_append, List.nil_append, List.append_assoc]
    exact hatom (.parenthesised (joined rfl (hloose (ihl hlegible.1 h.1 _)) (hright _)))
  | caseWhen c t f ihc iht ihf =>
    simp only [lexemes, List.cons_append, List.nil_append, List.append_assoc]
    exact hatom (.caseWhen (hloose (ihc hlegible.1 h.1 _)) (hloose (iht hlegible.2.1 h.2.1 _))
      (hloose (ihf hlegible.2.2 h.2.2 _)))
  | arrayGet a i iha ihi =>
    obtain ⟨hnegation, ha, hi⟩ := h
    have harray := iha hlegible.1 ha
    rw [level_of_isNegation hnegation] at harray
    simp only [lexemes, List.cons_append, List.nil_append, List.append_assoc]
    exact extend (l := .element) ⟨by decide, by decide⟩ (harray _)
      (.subscript (hloose (ihi hlegible.2 hi _)) .done)

/-- The lexemes that stand between the parts of forms. -/
def isDivider (x : Lexeme) : Bool := x.joint?.isSome || x = .word "THEN" || x = .word "ELSE"

@[simp] theorem isDivider_sign (op : Operator) : isDivider (.sign op.sign) = true := by
  rw [isDivider, joint?_sign]
  rfl

theorem isDivider_name {part : NamePart} (h : part.IsValid) : isDivider part.lexeme = false := by
  cases part with
  | delimited quote s => rfl
  | regular s =>
    have hne {k : String} (hk : Text.upper k ∈ NamePart.keywords) : s ≠ k := by
      rintro rfl
      exact h.2 hk
    simp [NamePart.lexeme, isDivider, joint?, hne (k := "OR") (by decide),
      hne (k := "AND") (by decide), hne (k := "THEN") (by decide), hne (k := "ELSE") (by decide)]

/-- No divider stands in the SQL of a form outside brackets, where `CASE` and `END` count as such. -/
theorem isClosed_of_isLegible {f : Form} (h : f.IsLegible IsNumeral) :
    IsClosed .withCase isDivider f.lexemes := by
  refine isClosed_lexemes Brackets.suitForms_withCase rfl ?_ ?_ h
  · intro f hatom hf
    cases f with
    | number s =>
      have hnumber : ofNumeral s = [.number s] := (IsNumeral.unsigned hf).2
      rw [lexemes, hnumber]
      exact .singleton ⟨rfl, rfl⟩ rfl
    | text s => exact .singleton ⟨rfl, rfl⟩ rfl
    | null => exact .singleton ⟨rfl, rfl⟩ rfl
    | column name =>
      refine .of_forall (QualifiedName.forall_mem_lexemes hf ?_ ⟨by decide, by decide⟩)
      intro part hpart
      exact ⟨NamePart.isPlain_lexeme hpart, isDivider_name hpart⟩
    | param v => exact .singleton ⟨rfl, rfl⟩ rfl
    | _ => cases hatom
  · intro c t f hc ht hf
    have hwhen : IsBalanced .withCase [.word "WHEN"] := ⟨_, rfl⟩
    have hbranches := (hc.isBalanced.sides (x := .word "THEN") ⟨rfl, rfl⟩ ht.isBalanced).sides
      (x := .word "ELSE") ⟨rfl, rfl⟩ hf.isBalanced
    have hall : IsClosed .withCase isDivider ([.word "CASE"] ++ ([.word "WHEN"] ++ _) ++
        [.word "END"]) := .enclosed ⟨rfl, rfl, rfl⟩ (hwhen.append hbranches)
    simpa only [List.append_assoc, List.cons_append, List.nil_append] using hall

/-- The lexemes of the form are read as the form, in front of something. -/
def IsReadAt (f : Form) (l : Level) : Prop :=
  ∃ rest, Reads (.whole l) (f.lexemes ++ rest) f rest

/-- A form that binds tighter than `NOT` is no negation. -/
theorem IsReadAt.isNegation_eq_false {f : Form} {l : Level} (h : f.IsReadAt l)
    (hl : Level.negation.rank < l.rank) : f.isNegation = false := by
  obtain ⟨rest, h⟩ := h
  cases f with
  | not e => exact absurd rfl (h.head_ne_not rfl hl)
  | _ => rfl

/-- Two parts with a divider between them are read each as it is, if something is read as the one
in front of the divider and something behind it as the other. -/
theorem isReadAt_of_sides {x : Lexeme} (hx : x.IsPlain .withCase) (hdivider : isDivider x = true)
    {left right : Form} (hleft : left.IsLegible IsNumeral) (hright : right.IsLegible IsNumeral)
    {l m : Level} {rest : List Lexeme}
    (h : ∃ middle, Reads (.whole l) (left.lexemes ++ x :: (right.lexemes ++ rest)) left
        (x :: middle) ∧ Reads (.whole m) middle right rest) :
    left.IsReadAt l ∧ right.IsReadAt m := by
  obtain ⟨middle, ha, hb⟩ := h
  obtain rfl := middle_eq hx hdivider (isClosed_of_isLegible hleft)
    (isClosed_of_isLegible hright) ha hb.exists_append
  exact ⟨⟨_, ha⟩, ⟨_, hb⟩⟩

theorem isReadAt_of_isNull {e : Form} {negated : Bool}
    (hlegible : (isNull e negated).IsLegible IsNumeral) {l : Level}
    (h : (isNull e negated).IsReadAt l) : e.IsReadAt .comparison := by
  obtain ⟨rest, h⟩ := h
  have he : IsClosed .withCase isDivider e.lexemes := isClosed_of_isLegible hlegible
  have htest : IsBalanced .withCase ((if negated then [.word "NOT"] else []) ++ [.word "NULL"]) := by
    cases negated <;> exact ⟨_, rfl⟩
  simp only [lexemes, List.append_assoc, List.cons_append, List.nil_append] at h
  have hmade := made_in_parentheses (x := .word "IS") ⟨rfl, rfl⟩ he.isBalanced htest
    (by simpa only [List.append_assoc, List.cons_append, List.nil_append] using h)
  simp only [List.append_assoc, List.cons_append, List.nil_append] at hmade
  exact ⟨_, hmade⟩

theorem isReadAt_of_not {e : Form} (hlegible : (not e).IsLegible IsNumeral) {l : Level}
    (h : (not e).IsReadAt l) : e.IsReadAt .disjunction := by
  obtain ⟨rest, h⟩ := h
  have he : IsClosed .withCase isDivider e.lexemes := isClosed_of_isLegible hlegible
  simp only [lexemes, List.append_assoc, List.cons_append, List.nil_append] at h
  rcases h.last_step with ⟨inner, hinput, hinner⟩ | ⟨inner, hinput, -⟩
  · obtain rfl := List.tail_eq_of_cons_eq hinput
    exact ⟨_, hinner.of_parentheses he.isBalanced⟩
  · cases hinput

/-- Neither `THEN` nor `ELSE` stands in a part, so the second is found from the first. -/
theorem isReadAt_of_caseWhen {c t f : Form} (hlegible : (caseWhen c t f).IsLegible IsNumeral)
    {l : Level} (h : (caseWhen c t f).IsReadAt l) :
    c.IsReadAt .disjunction ∧ t.IsReadAt .disjunction ∧ f.IsReadAt .disjunction := by
  obtain ⟨rest, h⟩ := h
  have hc := isClosed_of_isLegible hlegible.1
  have ht := isClosed_of_isLegible hlegible.2.1
  have hf := isClosed_of_isLegible hlegible.2.2
  simp only [lexemes, List.append_assoc, List.cons_append, List.nil_append] at h
  rcases h.last_step with ⟨first, second, third, hinput, hfirst, hsecond, hthird⟩ |
    ⟨inner, hinput, -⟩
  · obtain rfl := List.tail_eq_of_cons_eq (List.tail_eq_of_cons_eq hinput)
    have hthen : ∀ x : Lexeme, decide (x = .word "THEN") = true → isDivider x = true := by
      intro x hx
      rw [decide_eq_true_eq] at hx
      subst hx
      rfl
    have hbranches := ((ht.mono hthen).append
      (.singleton (x := .word "ELSE") ⟨rfl, rfl⟩ (by decide))).append (hf.mono hthen)
    have hmiddle : ∃ more, second = more ++ .word "END" :: rest := by
      obtain ⟨used, rfl⟩ := hsecond.exists_append
      obtain ⟨more, rfl⟩ := hthird.exists_append
      exact ⟨used ++ .word "ELSE" :: more, by simp⟩
    have hsecondEq := middle_eq (x := .word "THEN") ⟨rfl, rfl⟩ (by decide) (hc.mono hthen)
      hbranches (by simpa using hfirst) hmiddle
    simp only [List.append_assoc, List.cons_append, List.nil_append] at hsecondEq
    subst hsecondEq
    exact ⟨⟨_, hfirst⟩,
      isReadAt_of_sides ⟨rfl, rfl⟩ rfl hlegible.2.1 hlegible.2.2 ⟨third, hsecond, hthird⟩⟩
  · cases hinput

theorem isReadAt_of_arrayGet {a i : Form} (hlegible : (arrayGet a i).IsLegible IsNumeral)
    {l : Level} (h : (arrayGet a i).IsReadAt l) :
    a.IsReadAt .element ∧ i.IsReadAt .disjunction := by
  obtain ⟨rest, h⟩ := h
  have ha := isClosed_of_isLegible hlegible.1
  have hi := isClosed_of_isLegible hlegible.2
  have hall : Reads (.whole l) ((a.lexemes ++ .sign "[" :: i.lexemes) ++ .sign "]" :: rest)
      (.arrayGet a i) rest := by
    simpa only [lexemes, List.append_assoc, List.cons_append, List.nil_append] using h
  have hmade := made_of_subscript hall
  rw [List.append_assoc, List.cons_append] at hmade
  obtain ⟨middle, harray, hindex⟩ := hmade
  obtain rfl := middle_eq_of_subscript ha.isBalanced hi.isBalanced harray hindex
  exact ⟨⟨_, harray⟩, ⟨_, hindex⟩⟩

/-- Two parts with an operator between them in parentheses. -/
theorem made_of_enclosed {f left right : Form} {x : Lexeme} (hx : x.IsPlain .withCase)
    (hleft : left.IsLegible IsNumeral) (hright : right.IsLegible IsNumeral)
    (hlexemes : f.lexemes = .sign "(" :: (left.lexemes ++ x :: (right.lexemes ++ [.sign ")"])))
    {l : Level} (h : f.IsReadAt l) : ∃ rest,
      Made (left.lexemes ++ x :: (right.lexemes ++ .sign ")" :: rest)) (.sign ")" :: rest) f := by
  obtain ⟨rest, h⟩ := h
  rw [hlexemes] at h
  refine ⟨rest, made_in_parentheses hx (isClosed_of_isLegible hleft).isBalanced
    (isClosed_of_isLegible hright).isBalanced (?_ : Reads (.whole l) _ f rest)⟩
  simpa using h

/-- By induction on the form: the dividers tell where its parts end, so each part has been read
as it is; and behind an operator nothing is read that begins with `NOT`. -/
theorem isEnclosed_of_isReadAt {f : Form} (hlegible : f.IsLegible IsNumeral) {l : Level}
    (h : f.IsReadAt l) : f.IsEnclosed := by
  induction f generalizing l with
  | number s => trivial
  | text s => trivial
  | null => trivial
  | column name => trivial
  | param v => trivial
  | binary left op right ihl ihr =>
    have hop : IsPlain .withCase (.sign op.sign) := isPlain_of_joint? (joint?_sign op)
    obtain ⟨rest, hmade⟩ := made_of_enclosed hop hlegible.1 hlegible.2 (by simp [lexemes]) h
    obtain ⟨hl, hr⟩ := isReadAt_of_sides hop (isDivider_sign op) hlegible.1 hlegible.2 hmade
    have hlevel : Level.negation.rank < op.level.rank ∧
        Level.negation.rank < op.level.tighter.rank := by
      cases op <;> decide
    exact ⟨⟨hl.isNegation_eq_false hlevel.1, hr.isNegation_eq_false hlevel.2⟩,
      ihl hlegible.1 hl, ihr hlegible.2 hr⟩
  | isNull e negated ih =>
    have he := isReadAt_of_isNull hlegible h
    exact ⟨he.isNegation_eq_false (by decide), ih hlegible he⟩
  | not e ih => exact ih hlegible (isReadAt_of_not hlegible h)
  | and left right ihl ihr =>
    have hand : IsPlain .withCase (.word "AND") := ⟨rfl, rfl⟩
    obtain ⟨rest, hmade⟩ := made_of_enclosed hand hlegible.1 hlegible.2 (by simp [lexemes]) h
    obtain ⟨hl, hr⟩ := isReadAt_of_sides hand rfl hlegible.1 hlegible.2 hmade
    exact ⟨ihl hlegible.1 hl, ihr hlegible.2 hr⟩
  | or left right ihl ihr =>
    have hor : IsPlain .withCase (.word "OR") := ⟨rfl, rfl⟩
    obtain ⟨rest, hmade⟩ := made_of_enclosed hor hlegible.1 hlegible.2 (by simp [lexemes]) h
    obtain ⟨hl, hr⟩ := isReadAt_of_sides hor rfl hlegible.1 hlegible.2 hmade
    exact ⟨ihl hlegible.1 hl, ihr hlegible.2 hr⟩
  | caseWhen c t f ihc iht ihf =>
    obtain ⟨hc, ht, hf⟩ := isReadAt_of_caseWhen hlegible h
    exact ⟨ihc hlegible.1 hc, iht hlegible.2.1 ht, ihf hlegible.2.2 hf⟩
  | arrayGet a i iha ihi =>
    obtain ⟨ha, hi⟩ := isReadAt_of_arrayGet hlegible h
    exact ⟨ha.isNegation_eq_false (by decide), iha hlegible.1 ha, ihi hlegible.2 hi⟩

/-- The SQL of a form is read as the form exactly if no negation stands in it as an operand. -/
theorem reads_lexemes_iff {f : Form} (hlegible : f.IsLegible IsNumeral) :
    Reads (.whole .disjunction) f.lexemes f [] ↔ f.IsEnclosed := by
  constructor
  · intro h
    rw [← List.append_nil f.lexemes] at h
    exact isEnclosed_of_isReadAt hlegible ⟨[], h⟩
  · intro h
    have hread := reads hlegible h []
    rw [List.append_nil] at hread
    exact hread.loosen (Nat.zero_le _)

end Form

namespace Expr

open Lexeme

section Columns
variable {columns : String → Option QualifiedName}
  (hcolumns : ∀ name column, columns name = some column → column.IsValid)
include hcolumns

/-- What is rendered is the SQL of a legible form, and its text is cut into the lexemes of that. -/
theorem exists_form_of_render {Numeral : String → Prop} {e : Expr} (h : e.HasNumbers Numeral)
    (hsigned : ∀ s, Numeral s → IsSignedNumeral s) {sql : Sql}
    (hsql : e.render (fun n => (columns n).map QualifiedName.text) = .ok sql) :
    ∃ f, e.form columns = .ok f ∧ f.IsLegible Numeral ∧ Spells sql.atoms f.lexemes ∧
      ∀ style, Statement.lexemes ⟨style, sql⟩ = f.lexemes := by
  have hwords : ∀ name column, (columns name).map QualifiedName.text = some column →
      SqlText.Word column := by
    intro name column hcolumn
    obtain ⟨found, hfound, rfl⟩ := Option.map_eq_some_iff.mp hcolumn
    exact QualifiedName.word (hcolumns name found hfound)
  have htidy := (tidy_rendering hwords (h.mono hsigned).hasPlainNumbers).plain sql hsql
  rw [render_eq_form] at hsql
  obtain ⟨f, hf, rfl⟩ := Result.map_eq_ok_iff.mp hsql
  have hlegible : f.IsLegible Numeral := isMadeOf_form columns hcolumns h hf
  have hspells := Form.spells (hlegible.mono hsigned)
  refine ⟨f, hf, hlegible, hspells, fun style => ?_⟩
  rw [Sql.Tidy.lexemes_eq (s := ⟨style, f.sql⟩) htidy]
  exact hspells.read_eq

/-- The text of an expression is read as its normal form and as no other tree exactly if no negation
stands in that form as an operand; and it is never read as two trees. -/
theorem text_reads_form_iff {e : Expr} (hnumbers : e.HasNumbers IsNumeral)
    (style : PlaceholderStyle) {sql : Sql}
    (hsql : e.render (fun n => (columns n).map QualifiedName.text) = .ok sql) :
    ∃ f, e.form columns = .ok f ∧
      ((∀ t, Reads (.whole .disjunction) (Statement.lexemes ⟨style, sql⟩) t [] ↔ t = f) ↔
        f.IsEnclosed) ∧
      ∀ t t', Reads (.whole .disjunction) (Statement.lexemes ⟨style, sql⟩) t [] →
        Reads (.whole .disjunction) (Statement.lexemes ⟨style, sql⟩) t' [] → t = t' := by
  obtain ⟨f, hf, hlegible, -, hlexemes⟩ :=
    exists_form_of_render hcolumns hnumbers (fun _ h => h.isSigned) hsql
  have hunique {t t' : Form} (h : Reads (.whole .disjunction) f.lexemes t [])
      (h' : Reads (.whole .disjunction) f.lexemes t' []) : t = t' := (h.unique h' .nil .nil).1
  rw [hlexemes]
  refine ⟨f, hf, ?_, fun t t' h h' => hunique h h'⟩
  rw [← Form.reads_lexemes_iff hlegible]
  constructor
  · intro h
    exact (h f).mpr rfl
  · intro h t
    constructor
    · intro ht
      exact hunique ht h
    · rintro rfl
      exact h

end Columns

/-- The columns of a table that is called `T1`. -/
def firstTable (name : String) : Option QualifiedName :=
  if name ∈ ["state", "tags", "age", "active"] then some ⟨.regular "T1", [.regular name]⟩ else none

theorem isValid_firstTable (name : String) (column : QualifiedName)
    (h : firstTable name = some column) : column.IsValid := by
  unfold firstTable at h
  split at h
  · next hname =>
    obtain rfl := Option.some.inj h
    refine ⟨⟨rfl, by decide⟩, List.forall_mem_singleton.mpr ?_⟩
    have hall : ∀ name ∈ ["state", "tags", "age", "active"],
        isRegular name.toList = true ∧ Text.upper name ∉ NamePart.keywords := by decide
    exact hall name hname
  · cases h

/-- `CASE WHEN state = NULL THEN 0 ELSE tags[1] = 'a'`, or not `age < limit`. -/
def admission : Expr :=
  .or (.caseWhen (.binary (.named "state" none) .eq .null) (.number "0")
      (.binary (.arrayGet (.named "tags" none) (.number "1")) .eq (.text "a")))
    (.not (.binary (.named "age" none) .lt (.named "limit" (some (.text "18")))))

def admissionForm : Form :=
  .or (.and (.isNull (.column ⟨.regular "T1", [.regular "state"]⟩) true)
      (.binary (.arrayGet (.column ⟨.regular "T1", [.regular "tags"]⟩) (.number "1")) .eq
        (.text "a")))
    (.binary (.column ⟨.regular "T1", [.regular "age"]⟩) .ge (.param (.text "18")))

theorem text_reads_form_admission :
    ∃ sql, admission.render (fun n => (firstTable n).map QualifiedName.text) = .ok sql ∧
      Statement.sql ⟨.numbered, sql⟩ =
        "(((T1.state IS NOT NULL) AND (T1.tags[1] = 'a')) OR (T1.age >= $1))" ∧
      ∀ t, Reads (.whole .disjunction) (Statement.lexemes ⟨.numbered, sql⟩) t [] ↔
        t = admissionForm := by
  have hnumbers : admission.HasNumbers IsNumeral :=
    ⟨⟨⟨trivial, trivial⟩, rfl, ⟨trivial, rfl⟩, trivial⟩, trivial, trivial⟩
  have hform : admission.form firstTable = .ok admissionForm :=
    Result.eq_ok_of_toOption_eq_some (by decide)
  have hsql : admission.render (fun n => (firstTable n).map QualifiedName.text) =
      .ok admissionForm.sql := by
    rw [render_eq_form, hform]
    rfl
  obtain ⟨f, hf, hreads, -⟩ := text_reads_form_iff isValid_firstTable hnumbers .numbered hsql
  rw [hform] at hf
  obtain rfl := Except.ok.inj hf
  refine ⟨_, hsql, by decide +kernel, hreads.mpr ?_⟩
  simp [admissionForm, Form.IsEnclosed, Form.isNegation]

/-- `NOT active`, to which one is added. -/
def negatedSum : Expr := .binary (.not (.named "active" none)) .add (.number "1")

/-- Of this sum `NOT` takes in the whole when it is read. -/
theorem text_of_negatedSum_reads_otherwise :
    ∃ sql column, negatedSum.render (fun n => (firstTable n).map QualifiedName.text) = .ok sql ∧
      negatedSum.form firstTable = .ok (.binary (.not (.column column)) .add (.number "1")) ∧
      Statement.sql ⟨.positional, sql⟩ = "(NOT (T1.active) + 1)" ∧
      Reads (.whole .disjunction) (Statement.lexemes ⟨.positional, sql⟩)
        (.not (.binary (.column column) .add (.number "1"))) [] ∧
      ¬ Reads (.whole .disjunction) (Statement.lexemes ⟨.positional, sql⟩)
        (.binary (.not (.column column)) .add (.number "1")) [] := by
  have hnumbers : negatedSum.HasNumbers IsNumeral := ⟨trivial, rfl⟩
  have hform : negatedSum.form firstTable = .ok (.binary (.not (.column
      ⟨.regular "T1", [.regular "active"]⟩)) .add (.number "1")) :=
    Result.eq_ok_of_toOption_eq_some (by decide)
  have hsql : negatedSum.render (fun n => (firstTable n).map QualifiedName.text) =
      .ok (Form.binary (.not (.column ⟨.regular "T1", [.regular "active"]⟩)) .add
        (.number "1")).sql := by
    rw [render_eq_form, hform]
    rfl
  obtain ⟨f, hf, hlegible, -, hlexemes⟩ :=
    exists_form_of_render isValid_firstTable hnumbers (fun _ h => h.isSigned) hsql
  rw [hform] at hf
  obtain rfl := Except.ok.inj hf
  refine ⟨_, _, hsql, hform, by decide, ?_, ?_⟩
  · rw [hlexemes]
    have hcolumn (rest : List Lexeme) : Reads (.whole .disjunction)
        (.word "T1" :: .sign "." :: .word "active" :: rest)
        (.column ⟨.regular "T1", [.regular "active"]⟩) rest :=
      (Reads.column (isValid_firstTable "active" _ rfl) rfl).loosen (Nat.zero_le _)
    have hsum : Reads (.whole .sum) _ (.column ⟨.regular "T1", [.regular "active"]⟩)
        [.sign "+", .number "1", .sign ")"] := (Reads.parenthesised (hcolumn _)).loosen (by decide)
    have hone : Reads (.whole .product) [.number "1", .sign ")"] (.number "1") [.sign ")"] :=
      Reads.number.loosen (by decide)
    have hinner := Reads.extend (l := .sum) ⟨by decide, by decide⟩ hsum
      (.join (joint?_sign .add) hone .done)
    have hnot := Reads.not (hinner.loosen (m := .negation) (by decide))
    exact (Reads.parenthesised (hnot.loosen (Nat.zero_le _))).loosen (Nat.zero_le _)
  · rw [hlexemes, Form.reads_lexemes_iff hlegible]
    simp [Form.IsEnclosed, Form.isNegation]

end Expr

end RecordMapper
