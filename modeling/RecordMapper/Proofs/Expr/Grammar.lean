import RecordMapper.Proofs.Expr.Form

/-!
# The grammar of SQL expressions

Expressions are read by levels. Subscripts bind tightest; behind them come products, sums,
comparisons together with the tests for `NULL`, `NOT`, `AND` and `OR`. Operators of one level
associate to the left, and parentheses and `CASE ... END` are read as one operand each. A reading
takes a phrase off the front of the lexemes and leaves what stands behind it. What is read up to a
lexeme that does not continue it is read in one way only.
-/

set_option autoImplicit false

namespace RecordMapper

inductive Level
  | disjunction
  | conjunction
  | negation
  | comparison
  | sum
  | product
  | element
  | atom
deriving DecidableEq

namespace Level

/-- The level of the operands. -/
def tighter : Level → Level
  | disjunction => conjunction
  | conjunction => negation
  | negation => comparison
  | comparison => sum
  | sum => product
  | product => element
  | element => atom
  | atom => atom

/-- How tightly the operators of the level bind. -/
def rank : Level → Nat
  | disjunction => 0
  | conjunction => 1
  | negation => 2
  | comparison => 3
  | sum => 4
  | product => 5
  | element => 6
  | atom => 7

/-- Whether a phrase of the level is an operand and whatever continues it. -/
def IsChain (l : Level) : Prop := l ≠ negation ∧ l ≠ atom

theorem rank_tighter {l : Level} (h : l ≠ atom) : l.tighter.rank = l.rank + 1 := by
  cases l with
  | atom => exact absurd rfl h
  | _ => rfl

end Level

def Operator.level : Operator → Level
  | eq | ne | gt | ge | lt | le => .comparison
  | add | sub => .sum
  | mul | div | mod => .product

/-- A whole phrase of a level, or what continues the tree that has been read of it. -/
inductive Phrase
  | whole (l : Level)
  | rest (l : Level) (left : Form)

def Phrase.level : Phrase → Level
  | whole l | rest l _ => l

def Operator.ofSign? (s : String) : Option Operator := all.find? fun op => op.sign = s

theorem Operator.sign_of_ofSign? {s : String} {op : Operator} (h : ofSign? s = some op) :
    op.sign = s := by
  simpa using List.find?_some h

@[simp] theorem Operator.ofSign?_sign (op : Operator) : ofSign? op.sign = some op := by
  cases op <;> decide

/-- The level on which a lexeme joins two operands, and what it makes of them. -/
def Lexeme.joint? : Lexeme → Option (Level × (Form → Form → Form))
  | .word s =>
    if s = "OR" then some (.disjunction, .or)
    else if s = "AND" then some (.conjunction, .and)
    else none
  | .sign s => (Operator.ofSign? s).map fun op => (op.level, fun l r => .binary l op r)
  | _ => none

@[simp] theorem Lexeme.joint?_sign (op : Operator) :
    joint? (.sign op.sign) = some (op.level, fun l r => .binary l op r) := by
  rw [joint?, Operator.ofSign?_sign, Option.map_some]

/-- The phrase is read off the front of the first lexemes as the tree; the others are left. -/
inductive Reads : Phrase → List Lexeme → Form → List Lexeme → Prop
  | chain {l : Level} {a t : Form} {input middle rest : List Lexeme} :
    l.IsChain → Reads (.whole l.tighter) input a middle → Reads (.rest l a) middle t rest →
    Reads (.whole l) input t rest
  | done {l : Level} {a : Form} {rest : List Lexeme} : Reads (.rest l a) rest a rest
  | join {l : Level} {joint : Lexeme} {build : Form → Form → Form} {a b t : Form}
    {input middle rest : List Lexeme} :
    joint.joint? = some (l, build) → Reads (.whole l.tighter) input b middle →
    Reads (.rest l (build a b)) middle t rest → Reads (.rest l a) (joint :: input) t rest
  | isNull {a t : Form} {input rest : List Lexeme} :
    Reads (.rest .comparison (.isNull a false)) input t rest →
    Reads (.rest .comparison a) (.word "IS" :: .word "NULL" :: input) t rest
  | isNotNull {a t : Form} {input rest : List Lexeme} :
    Reads (.rest .comparison (.isNull a true)) input t rest →
    Reads (.rest .comparison a) (.word "IS" :: .word "NOT" :: .word "NULL" :: input) t rest
  | subscript {a i t : Form} {input middle rest : List Lexeme} :
    Reads (.whole .disjunction) input i (.sign "]" :: middle) →
    Reads (.rest .element (.arrayGet a i)) middle t rest →
    Reads (.rest .element a) (.sign "[" :: input) t rest
  | not {t : Form} {input rest : List Lexeme} :
    Reads (.whole .negation) input t rest →
    Reads (.whole .negation) (.word "NOT" :: input) (.not t) rest
  | affirmed {t : Form} {input rest : List Lexeme} :
    Reads (.whole .comparison) input t rest → Reads (.whole .negation) input t rest
  | number {s : String} {rest : List Lexeme} :
    Reads (.whole .atom) (.number s :: rest) (.number s) rest
  | text {s : String} {rest : List Lexeme} :
    Reads (.whole .atom) (.quoted '\'' s :: rest) (.text s) rest
  | null {rest : List Lexeme} : Reads (.whole .atom) (.word "NULL" :: rest) .null rest
  | param {v : Value} {rest : List Lexeme} : Reads (.whole .atom) (.param v :: rest) (.param v) rest
  | column {name : QualifiedName} {input rest : List Lexeme} :
    name.IsValid → input = name.lexemes ++ rest → Reads (.whole .atom) input (.column name) rest
  | parenthesised {t : Form} {input rest : List Lexeme} :
    Reads (.whole .disjunction) input t (.sign ")" :: rest) →
    Reads (.whole .atom) (.sign "(" :: input) t rest
  | caseWhen {c t f : Form} {input second third rest : List Lexeme} :
    Reads (.whole .disjunction) input c (.word "THEN" :: second) →
    Reads (.whole .disjunction) second t (.word "ELSE" :: third) →
    Reads (.whole .disjunction) third f (.word "END" :: rest) →
    Reads (.whole .atom) (.word "CASE" :: .word "WHEN" :: input) (.caseWhen c t f) rest

theorem NamePart.lexeme_ne_word {part : NamePart} (h : part.IsValid) {s : String}
    (hs : Text.upper s ∈ keywords) : part.lexeme ≠ .word s := by
  intro hword
  cases part with
  | delimited quote s => cases hword
  | regular name =>
    obtain rfl : name = s := Lexeme.word.inj hword
    exact h.2 hs

theorem NamePart.lexeme_ne_sign (part : NamePart) (s : String) : part.lexeme ≠ .sign s := by
  cases part <;> exact nofun

theorem NamePart.lexeme_inj {a b : NamePart} (h : a.lexeme = b.lexeme) : a = b := by
  cases a <;> cases b <;> cases h <;> rfl

section Names
variable {name other : QualifiedName} {rest rest' : List Lexeme}

/-- Two names that stand at the same place are one, unless one of them goes on behind the other. -/
theorem QualifiedName.unique (h : name.lexemes ++ rest = other.lexemes ++ rest')
    (hrest : rest.head? ≠ some (.sign ".")) (hrest' : rest'.head? ≠ some (.sign ".")) :
    name = other ∧ rest = rest' := by
  have hparts {a b : List NamePart} (h : (a.flatMap fun part => [.sign ".", part.lexeme]) ++ rest =
      (b.flatMap fun part => [.sign ".", part.lexeme]) ++ rest') : a = b ∧ rest = rest' := by
    induction a generalizing b with
    | nil =>
      cases b with
      | nil => exact ⟨rfl, h⟩
      | cons part b =>
        subst h
        exact absurd rfl hrest
    | cons part a ih =>
      cases b with
      | nil =>
        subst h
        exact absurd rfl hrest'
      | cons part' b =>
        simp only [List.flatMap_cons, List.cons_append, List.nil_append, List.cons.injEq,
          true_and] at h
        obtain ⟨hpart, h⟩ := h
        obtain rfl := NamePart.lexeme_inj hpart
        obtain ⟨rfl, hrests⟩ := ih h
        exact ⟨rfl, hrests⟩
  obtain ⟨first, others⟩ := name
  obtain ⟨first', others'⟩ := other
  simp only [lexemes, List.cons_append, List.cons.injEq] at h
  obtain ⟨hfirst, h⟩ := h
  obtain rfl := NamePart.lexeme_inj hfirst
  obtain ⟨rfl, hrests⟩ := hparts h
  exact ⟨rfl, hrests⟩

/-- A name begins with something that begins no other phrase. -/
theorem QualifiedName.head_lexemes (h : name.IsValid) {x : Lexeme} {input : List Lexeme}
    (hinput : x :: input = name.lexemes ++ rest) :
    (∀ s, Text.upper s ∈ NamePart.keywords → x ≠ .word s) ∧ (∀ s, x ≠ .sign s) ∧
      (∀ s, x ≠ .number s) ∧ (∀ s, x ≠ .quoted '\'' s) ∧ ∀ v, x ≠ .param v := by
  obtain ⟨rfl, -⟩ := List.cons.inj hinput
  have hfirst := h.1
  refine ⟨fun s hs => NamePart.lexeme_ne_word hfirst hs, fun s => NamePart.lexeme_ne_sign _ s,
    ?_, ?_, ?_⟩
  · intro s
    cases name.first <;> exact nofun
  · intro s hs
    cases hpart : name.first with
    | regular t =>
      rw [hpart] at hs
      cases hs
    | delimited quote t =>
      rw [hpart] at hs hfirst
      obtain ⟨rfl, -⟩ := Lexeme.quoted.inj hs
      exact hfirst.2 rfl
  · intro v
    cases name.first <;> exact nofun

end Names

/-- The level on which a lexeme goes on with what stands before it. -/
def Lexeme.level? (x : Lexeme) : Option Level :=
  match x.joint? with
  | some (l, _) => some l
  | none =>
    if x = .word "IS" then some .comparison
    else if x = .sign "[" then some .element
    else if x = .sign "." then some .atom
    else none

/-- A phrase of the level ends before these lexemes: what stands first goes on only with phrases of
a looser level, if it goes on with anything. -/
def Level.Stops (l : Level) (rest : List Lexeme) : Prop :=
  ∀ x ∈ rest.head?, ∀ m ∈ x.level?, m.rank < l.rank

section Stops
variable {l m : Level} {rest : List Lexeme} {x : Lexeme}

theorem Level.Stops.nil : l.Stops [] := by
  intro x hx
  cases hx

/-- Nothing goes on with a closing lexeme. -/
theorem Level.Stops.closer (h : x.level? = none) : l.Stops (x :: rest) := by
  intro y hy k hk
  obtain rfl := Option.some.inj hy
  rw [h] at hk
  cases hk

theorem Level.Stops.mono (h : l.Stops rest) (hlm : l.rank ≤ m.rank) : m.Stops rest :=
  fun x hx k hk => Nat.lt_of_lt_of_le (h x hx k hk) hlm

theorem Level.Stops.tighter (h : l.Stops rest) : l.tighter.Stops rest := by
  refine h.mono ?_
  cases l <;> decide

theorem Level.Stops.of_level? (hx : x.level? = some m) (hm : m.rank < l.rank) :
    l.Stops (x :: rest) := by
  intro y hy k hk
  obtain rfl := Option.some.inj hy
  rw [hx] at hk
  obtain rfl := Option.some.inj hk
  exact hm

theorem Level.Stops.elim (h : l.Stops (x :: rest)) (hx : x.level? = some l) : False :=
  Nat.lt_irrefl l.rank (h x rfl l hx)

theorem Level.Stops.head_ne_point (h : Level.atom.Stops rest) :
    rest.head? ≠ some (.sign ".") := fun hpoint => Nat.lt_irrefl _ (h _ hpoint .atom rfl)

theorem isChain_of_joint? {build : Form → Form → Form} (h : x.joint? = some (l, build)) :
    l.IsChain := by
  unfold Lexeme.joint? at h
  split at h
  · split at h
    · obtain ⟨rfl, -⟩ := Prod.mk.inj (Option.some.inj h)
      exact ⟨nofun, nofun⟩
    · split at h
      · obtain ⟨rfl, -⟩ := Prod.mk.inj (Option.some.inj h)
        exact ⟨nofun, nofun⟩
      · cases h
  · obtain ⟨op, -, h⟩ := Option.map_eq_some_iff.mp h
    obtain ⟨rfl, -⟩ := Prod.mk.inj h
    cases op <;> exact ⟨nofun, nofun⟩
  · cases h

theorem Lexeme.level?_of_joint? {build : Form → Form → Form} (h : x.joint? = some (l, build)) :
    x.level? = some l := by
  rw [level?, h]

end Stops

namespace Reads

variable {p : Phrase} {l m : Level} {a t : Form} {input middle rest : List Lexeme}

/-- A phrase that binds tighter than `NOT` does not begin with it. -/
theorem head_ne_not (h : Reads p input t rest) (hp : p = .whole l)
    (hl : Level.negation.rank < l.rank) : input.head? ≠ some (.word "NOT") := by
  induction h generalizing l with
  | chain hchain hfirst hrest ihfirst ihrest =>
    obtain rfl := Phrase.whole.inj hp
    exact ihfirst rfl (by rw [Level.rank_tighter hchain.2]; omega)
  | done => cases hp
  | join => cases hp
  | isNull => cases hp
  | isNotNull => cases hp
  | subscript => cases hp
  | not =>
    obtain rfl := Phrase.whole.inj hp
    exact absurd hl (Nat.lt_irrefl _)
  | affirmed =>
    obtain rfl := Phrase.whole.inj hp
    exact absurd hl (Nat.lt_irrefl _)
  | number => exact nofun
  | text => exact nofun
  | null => rw [List.head?_cons]; decide
  | param => exact nofun
  | column hname hinput =>
    rw [hinput, QualifiedName.lexemes, List.cons_append, List.head?_cons]
    intro hhead
    exact NamePart.lexeme_ne_word hname.1 (by decide) (Option.some.inj hhead)
  | parenthesised => exact nofun
  | caseWhen => rw [List.head?_cons]; decide

/-- Where an operand ends, if what it belongs to ends before `rest`. -/
theorem stops_middle (h : Reads (.rest l a) middle t rest) (hl : l.IsChain) (hrest : l.Stops rest) :
    l.tighter.Stops middle := by
  have hrank : l.rank < l.tighter.rank := by
    rw [Level.rank_tighter hl.2]
    exact Nat.lt_succ_self _
  cases h with
  | done => exact hrest.tighter
  | join hjoint => exact .of_level? (Lexeme.level?_of_joint? hjoint) hrank
  | isNull => exact .of_level? rfl hrank
  | isNotNull => exact .of_level? rfl hrank
  | subscript => exact .of_level? rfl hrank

theorem exists_of_chain (hl : l.IsChain) (h : Reads (.whole l) input t rest) :
    ∃ a middle, Reads (.whole l.tighter) input a middle ∧ Reads (.rest l a) middle t rest := by
  cases h with
  | chain _ hfirst hmore => exact ⟨_, _, hfirst, hmore⟩
  | not => exact absurd rfl hl.1
  | affirmed => exact absurd rfl hl.1
  | _ => exact absurd rfl hl.2

/-- Before something that ends the phrase, a tree goes on with nothing. -/
theorem eq_of_stops (h : Reads (.rest l a) input t rest) (hinput : l.Stops input) :
    a = t ∧ input = rest := by
  cases h with
  | done => exact ⟨rfl, rfl⟩
  | join hjoint => exact (hinput.elim (Lexeme.level?_of_joint? hjoint)).elim
  | isNull => exact (hinput.elim rfl).elim
  | isNotNull => exact (hinput.elim rfl).elim
  | subscript => exact (hinput.elim rfl).elim

/-- Behind an operator stands an operand. -/
theorem exists_of_joint {joint : Lexeme} {build : Form → Form → Form}
    (hjoint : joint.joint? = some (l, build)) (h : Reads (.rest l a) (joint :: input) t rest)
    (hrest : l.Stops rest) :
    ∃ b middle, Reads (.whole l.tighter) input b middle ∧
      Reads (.rest l (build a b)) middle t rest := by
  cases h with
  | done => exact (hrest.elim (Lexeme.level?_of_joint? hjoint)).elim
  | join hjoint' hoperand hmore =>
    rw [hjoint] at hjoint'
    obtain ⟨-, rfl⟩ := Prod.mk.inj (Option.some.inj hjoint')
    exact ⟨_, _, hoperand, hmore⟩
  | isNull => cases hjoint
  | isNotNull => cases hjoint
  | subscript => cases hjoint

theorem of_isNull
    (h : Reads (.rest .comparison a) (.word "IS" :: .word "NULL" :: input) t rest)
    (hrest : Level.comparison.Stops rest) :
    Reads (.rest .comparison (.isNull a false)) input t rest := by
  generalize hwhole : Lexeme.word "IS" :: .word "NULL" :: input = whole at h
  cases h with
  | done =>
    subst hwhole
    exact (hrest.elim rfl).elim
  | join hjoint =>
    obtain ⟨rfl, -⟩ := List.cons.inj hwhole
    cases hjoint
  | isNull hmore =>
    obtain rfl := List.tail_eq_of_cons_eq (List.tail_eq_of_cons_eq hwhole)
    exact hmore
  | isNotNull =>
    exact absurd (List.head_eq_of_cons_eq (List.tail_eq_of_cons_eq hwhole)) (by decide)

theorem of_isNotNull
    (h : Reads (.rest .comparison a) (.word "IS" :: .word "NOT" :: .word "NULL" :: input) t rest)
    (hrest : Level.comparison.Stops rest) :
    Reads (.rest .comparison (.isNull a true)) input t rest := by
  generalize hwhole : Lexeme.word "IS" :: .word "NOT" :: .word "NULL" :: input = whole at h
  cases h with
  | done =>
    subst hwhole
    exact (hrest.elim rfl).elim
  | join hjoint =>
    obtain ⟨rfl, -⟩ := List.cons.inj hwhole
    cases hjoint
  | isNull => exact absurd (List.head_eq_of_cons_eq (List.tail_eq_of_cons_eq hwhole)) (by decide)
  | isNotNull hmore =>
    obtain rfl :=
      List.tail_eq_of_cons_eq (List.tail_eq_of_cons_eq (List.tail_eq_of_cons_eq hwhole))
    exact hmore

theorem exists_of_subscript (h : Reads (.rest .element a) (.sign "[" :: input) t rest)
    (hrest : Level.element.Stops rest) :
    ∃ i middle, Reads (.whole .disjunction) input i (.sign "]" :: middle) ∧
      Reads (.rest .element (.arrayGet a i)) middle t rest := by
  cases h with
  | done => exact (hrest.elim rfl).elim
  | join hjoint => cases hjoint
  | subscript hindex hmore => exact ⟨_, _, hindex, hmore⟩

theorem exists_of_not (h : Reads (.whole .negation) (.word "NOT" :: input) t rest) :
    ∃ inner, t = .not inner ∧ Reads (.whole .negation) input inner rest := by
  cases h with
  | chain hchain => exact absurd rfl hchain.1
  | not hinner => exact ⟨_, rfl, hinner⟩
  | affirmed h => exact absurd rfl (h.head_ne_not rfl (by decide))

theorem of_affirmed (h : Reads (.whole .negation) input t rest)
    (hinput : input.head? ≠ some (.word "NOT")) : Reads (.whole .comparison) input t rest := by
  cases h with
  | chain hchain => exact absurd rfl hchain.1
  | not => exact absurd rfl hinput
  | affirmed hinner => exact hinner

section Atoms
variable {s : String} {v : Value}

theorem eq_of_number (h : Reads (.whole .atom) (.number s :: input) t rest) :
    .number s = t ∧ input = rest := by
  cases h with
  | chain hchain => exact absurd rfl hchain.2
  | number => exact ⟨rfl, rfl⟩
  | column hname hinput => exact absurd rfl ((QualifiedName.head_lexemes hname hinput).2.2.1 _)

theorem eq_of_text (h : Reads (.whole .atom) (.quoted '\'' s :: input) t rest) :
    .text s = t ∧ input = rest := by
  cases h with
  | chain hchain => exact absurd rfl hchain.2
  | text => exact ⟨rfl, rfl⟩
  | column hname hinput =>
    exact absurd rfl ((QualifiedName.head_lexemes hname hinput).2.2.2.1 _)

theorem eq_of_null (h : Reads (.whole .atom) (.word "NULL" :: input) t rest) :
    .null = t ∧ input = rest := by
  generalize hwhole : Lexeme.word "NULL" :: input = whole at h
  cases h with
  | chain hchain => exact absurd rfl hchain.2
  | null => exact ⟨rfl, List.tail_eq_of_cons_eq hwhole⟩
  | column hname hcolumn =>
    subst hwhole
    exact absurd rfl ((QualifiedName.head_lexemes hname hcolumn).1 _ (by decide))
  | caseWhen => exact absurd (List.head_eq_of_cons_eq hwhole) (by decide)
  | _ => cases hwhole

theorem eq_of_param (h : Reads (.whole .atom) (.param v :: input) t rest) :
    .param v = t ∧ input = rest := by
  cases h with
  | chain hchain => exact absurd rfl hchain.2
  | param => exact ⟨rfl, rfl⟩
  | column hname hinput =>
    exact absurd rfl ((QualifiedName.head_lexemes hname hinput).2.2.2.2 _)

theorem eq_of_column {name : QualifiedName} (hname : name.IsValid)
    (h : Reads (.whole .atom) (name.lexemes ++ input) t rest) (hinput : Level.atom.Stops input)
    (hrest : Level.atom.Stops rest) : .column name = t ∧ input = rest := by
  generalize hwhole : name.lexemes ++ input = whole at h
  cases h with
  | chain hchain => exact absurd rfl hchain.2
  | column hname' hcolumn =>
    rw [← hwhole] at hcolumn
    obtain ⟨rfl, hrests⟩ :=
      QualifiedName.unique hcolumn hinput.head_ne_point hrest.head_ne_point
    exact ⟨rfl, hrests⟩
  | number => exact absurd rfl ((QualifiedName.head_lexemes hname hwhole.symm).2.2.1 _)
  | text => exact absurd rfl ((QualifiedName.head_lexemes hname hwhole.symm).2.2.2.1 _)
  | null => exact absurd rfl ((QualifiedName.head_lexemes hname hwhole.symm).1 _ (by decide))
  | param => exact absurd rfl ((QualifiedName.head_lexemes hname hwhole.symm).2.2.2.2 _)
  | parenthesised => exact absurd rfl ((QualifiedName.head_lexemes hname hwhole.symm).2.1 _)
  | caseWhen => exact absurd rfl ((QualifiedName.head_lexemes hname hwhole.symm).1 _ (by decide))

theorem of_parenthesised (h : Reads (.whole .atom) (.sign "(" :: input) t rest) :
    Reads (.whole .disjunction) input t (.sign ")" :: rest) := by
  cases h with
  | chain hchain => exact absurd rfl hchain.2
  | parenthesised hinner => exact hinner
  | column hname hinput => exact absurd rfl ((QualifiedName.head_lexemes hname hinput).2.1 _)

theorem exists_of_caseWhen
    (h : Reads (.whole .atom) (.word "CASE" :: .word "WHEN" :: input) t rest) :
    ∃ c t' f second third, t = .caseWhen c t' f ∧
      Reads (.whole .disjunction) input c (.word "THEN" :: second) ∧
      Reads (.whole .disjunction) second t' (.word "ELSE" :: third) ∧
      Reads (.whole .disjunction) third f (.word "END" :: rest) := by
  generalize hwhole : Lexeme.word "CASE" :: .word "WHEN" :: input = whole at h
  cases h with
  | chain hchain => exact absurd rfl hchain.2
  | caseWhen hc ht hf =>
    obtain rfl := List.tail_eq_of_cons_eq (List.tail_eq_of_cons_eq hwhole)
    exact ⟨_, _, _, _, _, rfl, hc, ht, hf⟩
  | column hname hcolumn =>
    subst hwhole
    exact absurd rfl ((QualifiedName.head_lexemes hname hcolumn).1 _ (by decide))
  | null => exact absurd (List.head_eq_of_cons_eq hwhole) (by decide)
  | _ => cases hwhole

end Atoms

/-- A phrase that ends before both rests is read in one way. By induction on one reading: its next
lexeme tells how the other one goes on. -/
theorem unique (h : Reads p input t rest) {t' : Form} {rest' : List Lexeme}
    (h' : Reads p input t' rest') (hrest : p.level.Stops rest) (hrest' : p.level.Stops rest') :
    t = t' ∧ rest = rest' := by
  induction h generalizing t' rest' with
  | chain hchain hfirst hmore ihfirst ihmore =>
    obtain ⟨a, middle, hfirst', hmore'⟩ := exists_of_chain hchain h'
    obtain ⟨rfl, rfl⟩ := ihfirst hfirst' (stops_middle hmore hchain hrest)
      (stops_middle hmore' hchain hrest')
    exact ihmore hmore' hrest hrest'
  | done => exact eq_of_stops h' hrest
  | join hjoint hoperand hmore ihoperand ihmore =>
    have hchain := isChain_of_joint? hjoint
    obtain ⟨b, middle, hoperand', hmore'⟩ := exists_of_joint hjoint h' hrest'
    obtain ⟨rfl, rfl⟩ := ihoperand hoperand' (stops_middle hmore hchain hrest)
      (stops_middle hmore' hchain hrest')
    exact ihmore hmore' hrest hrest'
  | isNull hmore ih => exact ih (of_isNull h' hrest') hrest hrest'
  | isNotNull hmore ih => exact ih (of_isNotNull h' hrest') hrest hrest'
  | subscript hindex hmore ihindex ihmore =>
    obtain ⟨i, middle, hindex', hmore'⟩ := exists_of_subscript h' hrest'
    obtain ⟨rfl, hclosed⟩ := ihindex hindex' (.closer rfl) (.closer rfl)
    obtain rfl := List.tail_eq_of_cons_eq hclosed
    exact ihmore hmore' hrest hrest'
  | not hinner ih =>
    obtain ⟨inner, rfl, hinner'⟩ := exists_of_not h'
    obtain ⟨rfl, hrests⟩ := ih hinner' hrest hrest'
    exact ⟨rfl, hrests⟩
  | affirmed hinner ih =>
    have hinner' := of_affirmed h' (hinner.head_ne_not rfl (by decide))
    exact ih hinner' hrest.tighter hrest'.tighter
  | number => exact eq_of_number h'
  | text => exact eq_of_text h'
  | null => exact eq_of_null h'
  | param => exact eq_of_param h'
  | column hname hinput =>
    rw [hinput] at h'
    exact eq_of_column hname h' hrest hrest'
  | parenthesised hinner ih =>
    obtain ⟨rfl, hclosed⟩ := ih (of_parenthesised h') (.closer rfl) (.closer rfl)
    exact ⟨rfl, List.tail_eq_of_cons_eq hclosed⟩
  | caseWhen hc ht hf ihc iht ihf =>
    obtain ⟨c, t, f, second, third, rfl, hc', ht', hf'⟩ := exists_of_caseWhen h'
    obtain ⟨rfl, hthen⟩ := ihc hc' (.closer rfl) (.closer rfl)
    obtain rfl := List.tail_eq_of_cons_eq hthen
    obtain ⟨rfl, helse⟩ := iht ht' (.closer rfl) (.closer rfl)
    obtain rfl := List.tail_eq_of_cons_eq helse
    obtain ⟨rfl, hend⟩ := ihf hf' (.closer rfl) (.closer rfl)
    exact ⟨rfl, List.tail_eq_of_cons_eq hend⟩

/-- What is read of a tighter level is read of a looser one. -/
theorem loosen (h : Reads (.whole l) input t rest) (hml : m.rank ≤ l.rank) :
    Reads (.whole m) input t rest := by
  have hstep {m : Level} (hm : m ≠ .atom) (h : Reads (.whole m.tighter) input t rest) :
      Reads (.whole m) input t rest := by
    by_cases hnegation : m = .negation
    · subst hnegation
      exact .affirmed h
    · exact .chain ⟨hnegation, hm⟩ h .done
  induction hk : l.rank - m.rank generalizing m with
  | zero =>
    obtain rfl : m = l := by
      cases l <;> cases m <;> first | rfl | (simp only [Level.rank] at hk hml; omega)
    exact h
  | succ k ih =>
    have hm : m ≠ .atom := by
      rintro rfl
      cases l <;> simp only [Level.rank] at hk <;> omega
    refine hstep hm (ih ?_ ?_)
    · rw [Level.rank_tighter hm]
      omega
    · rw [Level.rank_tighter hm]
      omega

theorem rest_trans {b : Form} (h : Reads (.rest l b) input a middle)
    (hmore : Reads (.rest l a) middle t rest) : Reads (.rest l b) input t rest := by
  generalize hp : Phrase.rest l b = p at h
  induction h generalizing b with
  | done =>
    obtain ⟨rfl, rfl⟩ := Phrase.rest.inj hp
    exact hmore
  | join hjoint hoperand hrest ihoperand ihrest =>
    obtain ⟨rfl, rfl⟩ := Phrase.rest.inj hp
    exact .join hjoint hoperand (ihrest hmore rfl)
  | isNull hrest ih =>
    obtain ⟨rfl, rfl⟩ := Phrase.rest.inj hp
    exact .isNull (ih hmore rfl)
  | isNotNull hrest ih =>
    obtain ⟨rfl, rfl⟩ := Phrase.rest.inj hp
    exact .isNotNull (ih hmore rfl)
  | subscript hindex hrest ihindex ih =>
    obtain ⟨rfl, rfl⟩ := Phrase.rest.inj hp
    exact .subscript hindex (ih hmore rfl)
  | _ => cases hp

/-- What a tree goes on with is read behind it. -/
theorem extend (hl : l.IsChain) (h : Reads (.whole l) input a middle)
    (hmore : Reads (.rest l a) middle t rest) : Reads (.whole l) input t rest := by
  obtain ⟨b, first, hfirst, hmiddle⟩ := exists_of_chain hl h
  exact .chain hl hfirst (rest_trans hmiddle hmore)

/-- Two operands with what joins them. -/
theorem joined {x : Lexeme} {build : Form → Form → Form} {b : Form}
    (hx : x.joint? = some (l, build)) (ha : Reads (.whole l) input a (x :: middle))
    (hb : Reads (.whole l.tighter) middle b rest) :
    Reads (.whole .disjunction) input (build a b) rest :=
  (extend (isChain_of_joint? hx) ha (.join hx hb .done)).loosen (Nat.zero_le _)

end Reads

end RecordMapper
