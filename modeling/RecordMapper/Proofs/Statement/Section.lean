import RecordMapper.Proofs.Statement.Name
import RecordMapper.Proofs.Statement.Nesting
import RecordMapper.Query.Basic

/-!
# The sections of a statement

A statement is a row of sections, each behind the word that begins it. A condition in it is read
with `AND` binding tighter than `OR`: as alternatives, each of them a conjunction. Only what stands
outside brackets is cut. A section that introduces a table ends with the name that the table is
given.
-/

set_option autoImplicit false

namespace RecordMapper

/-- A word that begins a section, and what stands behind it. -/
abbrev StatementSection := String × List Lexeme

namespace Lexeme

def sectionWords : List String :=
  ["SELECT", "FROM", "INNER", "LEFT", "JOIN", "ON", "WHERE", "GROUP", "ORDER", "LIMIT", "OFFSET",
    "FETCH", "UPDATE", "SET", "DELETE"]

def beginsSection : Lexeme → Bool
  | .word s => Text.upper s ∈ sectionWords
  | _ => false

/-- The sections of the lexemes; each goes on to where the next one begins. -/
def sections : List Lexeme → List StatementSection
  | [] => []
  | .word s :: rest =>
    if Text.upper s ∈ sectionWords then
      (s, rest.takeWhile fun x => !x.beginsSection) :: sections rest
    else sections rest
  | _ :: rest => sections rest

def word? : Lexeme → Option String
  | .word s => some s
  | _ => none

/-- The words that stand before a point. -/
def qualifiers : List Lexeme → List String
  | [] => []
  | x :: rest =>
    if rest.head? = some (.sign ".") then x.word?.toList ++ qualifiers rest else qualifiers rest

/-- No section begins inside, the first lexeme is no point, and the words before points are such as
`Q` says. -/
structure IsBody (Q : String → Prop) (a : List Lexeme) : Prop where
  goesOn : ∀ x ∈ a, x.beginsSection = false
  first : a.head? ≠ some (.sign ".")
  qualifiers : ∀ w ∈ qualifiers a, Q w

section Body
variable {Q : String → Prop} {a b : List Lexeme} {x : Lexeme}

theorem qualifiers_append (hb : b.head? ≠ some (.sign ".")) :
    Lexeme.qualifiers (a ++ b) = Lexeme.qualifiers a ++ Lexeme.qualifiers b := by
  induction a with
  | nil => rfl
  | cons x a ih =>
    have hhead : (a ++ b).head? = some (.sign ".") ↔ a.head? = some (.sign ".") := by
      cases a with
      | nil => exact ⟨fun h => absurd h hb, nofun⟩
      | cons y a => rfl
    rw [List.cons_append, Lexeme.qualifiers, Lexeme.qualifiers, ih]
    by_cases hpoint : a.head? = some (.sign ".")
    · rw [if_pos hpoint, if_pos (hhead.mpr hpoint), List.append_assoc]
    · rw [if_neg hpoint, if_neg fun h => hpoint (hhead.mp h)]

theorem isAdditive_isBody (Q : String → Prop) : IsAdditive (IsBody Q) where
  nil := ⟨List.forall_mem_nil _, nofun, List.forall_mem_nil _⟩
  append := by
    intro a b ha hb
    refine ⟨List.forall_mem_append.mpr ⟨ha.goesOn, hb.goesOn⟩, ?_, ?_⟩
    · cases a with
      | nil => exact hb.first
      | cons x a => exact ha.first
    · rw [qualifiers_append hb.first]
      exact List.forall_mem_append.mpr ⟨ha.qualifiers, hb.qualifiers⟩

theorem IsBody.singleton (hx : x.beginsSection = false) (hpoint : x ≠ .sign ".") :
    IsBody Q [x] := by
  refine ⟨List.forall_mem_singleton.mpr hx, ?_, List.forall_mem_nil _⟩
  intro h
  exact hpoint (Option.some.inj h)

theorem IsBody.word {w : String} (h : beginsSection (.word w) = false) : IsBody Q [.word w] :=
  .singleton h (by simp)

theorem IsBody.sign {s : String} (h : s ≠ ".") : IsBody Q [.sign s] :=
  .singleton rfl (by simpa using h)

theorem IsBody.number (s : String) : IsBody Q [.number s] := .singleton rfl (by simp)

theorem IsBody.quoted (quote : Char) (s : String) : IsBody Q [.quoted quote s] :=
  .singleton rfl (by simp)

theorem IsBody.param (v : Value) : IsBody Q [.param v] := .singleton rfl (by simp)

theorem IsBody.of_forall (h : ∀ x ∈ a, x.beginsSection = false ∧ x ≠ .sign ".") : IsBody Q a :=
  (isAdditive_isBody Q).of_forall fun x hx => .singleton (h x hx).1 (h x hx).2

end Body

/-- The lexemes of the sections, one after the other. -/
def ofSections (secs : List StatementSection) : List Lexeme :=
  secs.flatMap fun sec => .word sec.1 :: sec.2

@[simp] theorem ofSections_cons (sec : StatementSection) (secs : List StatementSection) :
    ofSections (sec :: secs) = .word sec.1 :: sec.2 ++ ofSections secs := rfl

theorem ofSections_singleton (sec : StatementSection) :
    ofSections [sec] = .word sec.1 :: sec.2 := List.append_nil _

@[simp] theorem ofSections_append (a b : List StatementSection) :
    ofSections (a ++ b) = ofSections a ++ ofSections b := List.flatMap_append

/-- The section begins with a word for sections, and no other one begins in it. -/
structure IsSection (Q : String → Prop) (sec : StatementSection) : Prop where
  begins : Text.upper sec.1 ∈ sectionWords
  body : IsBody Q sec.2

section Sections
variable {Q : String → Prop} {secs : List StatementSection}

theorem sections_append {a : List Lexeme} (h : ∀ x ∈ a, x.beginsSection = false)
    (b : List Lexeme) : sections (a ++ b) = sections b := by
  induction a with
  | nil => rfl
  | cons x a ih =>
    have hx := h x List.mem_cons_self
    have hrest := ih fun y hy => h y (List.mem_cons_of_mem x hy)
    cases x with
    | word s =>
      have hs : Text.upper s ∉ sectionWords := of_decide_eq_false hx
      rw [List.cons_append, sections, if_neg hs, hrest]
    | _ => exact hrest

/-- Sections are found again in what they are put together to. -/
theorem sections_ofSections (h : ∀ sec ∈ secs, IsSection Q sec) :
    sections (ofSections secs) = secs := by
  induction secs with
  | nil => rfl
  | cons sec secs ih =>
    obtain ⟨word, body⟩ := sec
    have hsec := h (word, body) List.mem_cons_self
    have hrest := ih fun s hs => h s (List.mem_cons_of_mem _ hs)
    have htake : (body ++ ofSections secs).takeWhile (fun x => !x.beginsSection) = body := by
      rw [List.takeWhile_append_of_pos fun x hx => by rw [hsec.body.goesOn x hx]; rfl]
      cases secs with
      | nil => exact List.append_nil body
      | cons next others =>
        have hnext := (h next (List.mem_cons_of_mem _ List.mem_cons_self)).begins
        have hbegins : beginsSection (.word next.1) = true := decide_eq_true hnext
        rw [ofSections_cons, List.cons_append, List.takeWhile_cons, hbegins]
        exact List.append_nil body
    rw [ofSections_cons, List.cons_append, sections, if_pos hsec.begins, htake,
      sections_append hsec.body.goesOn, hrest]

/-- Between sections no word comes before a point. -/
theorem forall_mem_qualifiers_ofSections (h : ∀ sec ∈ secs, IsSection Q sec) :
    ∀ w ∈ qualifiers (ofSections secs), Q w := by
  induction secs with
  | nil => exact List.forall_mem_nil _
  | cons sec secs ih =>
    have hbody := (h sec List.mem_cons_self).body
    have hrest := ih fun s hs => h s (List.mem_cons_of_mem _ hs)
    have hfirst : (ofSections secs).head? ≠ some (.sign ".") := by
      cases secs with
      | nil => exact nofun
      | cons next others => exact nofun
    have hbegun : qualifiers (.word sec.1 :: sec.2) = qualifiers sec.2 := by
      rw [qualifiers, if_neg hbody.first]
    rw [ofSections_cons, qualifiers_append hfirst, hbegun]
    exact List.forall_mem_append.mpr ⟨hbody.qualifiers, hrest⟩

end Sections

/-- A piece that is cut in one way before a break and may stand in a section. -/
structure IsPiece (Q : String → Prop) (a : List Atom) (ls : List Lexeme) : Prop where
  spells : Spells a ls
  body : IsBody Q ls

/-- A piece that ends what stands before it and is a row of sections. -/
structure Lays (Q : String → Prop) (a : List Atom) (secs : List StatementSection) : Prop where
  follows : Follows a (ofSections secs)
  sections : ∀ sec ∈ secs, IsSection Q sec

section Writing
variable {Q : String → Prop} {a b k : List Atom} {ls ms ks : List Lexeme}
  {front secs others : List StatementSection}

theorem IsPiece.append (ha : IsPiece Q a ls) (hb : IsPiece Q b ms) (hbreaks : scanner.Breaks b) :
    IsPiece Q (a ++ b) (ls ++ ms) :=
  ⟨ha.spells.append hb.spells hbreaks, (isAdditive_isBody Q).append ha.body hb.body⟩

theorem IsPiece.separated {separator : String} {x : Lexeme}
    (hseparator : Delimited (Sql.chars separator) [x]) {first : Atom}
    (hfirst : (Sql.chars separator).head? = some first) (hbreak : isBreak first = true)
    (hx : IsBody Q [x]) {α : Type} {write : α → Sql} {pieces : α → List Lexeme} {ys : List α}
    (h : ∀ y ∈ ys, IsPiece Q (write y).atoms (pieces y)) :
    IsPiece Q (Sql.separated separator (ys.map write)).atoms
      ([x].intercalate (ys.map pieces)) := by
  have hspells := Scanner.Spells.separated hseparator hfirst hbreak fun y hy => (h y hy).spells
  refine ⟨hspells, (isAdditive_isBody Q).intercalate hx ?_⟩
  intro ls hls
  obtain ⟨y, hy, rfl⟩ := List.mem_map.mp hls
  exact (h y hy).body

theorem IsPiece.commas {α : Type} {write : α → Sql} {pieces : α → List Lexeme} {xs : List α}
    (h : ∀ x ∈ xs, IsPiece Q (write x).atoms (pieces x)) :
    IsPiece Q (Sql.commas (xs.map write)).atoms ([.sign ","].intercalate (xs.map pieces)) :=
  .separated (fun _ => rfl) rfl rfl (.sign (by decide)) h

theorem IsPiece.conjunction {conditions : List Sql}
    (h : ∀ sql ∈ conditions, IsPiece Q sql.atoms sql.lexemes) :
    IsPiece Q (Sql.separated " AND " conditions).atoms
      ([.word "AND"].intercalate (conditions.map Sql.lexemes)) := by
  have hid : ∀ sql ∈ conditions, IsPiece Q (id sql).atoms sql.lexemes := h
  have hand : Delimited (Sql.chars " AND ") [.word "AND"] := fun _ => rfl
  have hall := IsPiece.separated hand rfl rfl (.word (by decide)) hid
  rwa [List.map_id] at hall

theorem Lays.nil : Lays Q [] [] := ⟨.nil, List.forall_mem_nil _⟩

theorem Lays.append (ha : Lays Q a secs) (hb : Lays Q b others) :
    Lays Q (a ++ b) (secs ++ others) := by
  refine ⟨?_, List.forall_mem_append.mpr ⟨ha.sections, hb.sections⟩⟩
  rw [ofSections_append]
  exact ha.follows.append hb.follows

/-- The sections that begin between the words of a keyword, the last one going on behind it. -/
theorem Lays.keyword (hk : Delimited k ks) {first : Atom} (hfirst : k.head? = some first)
    (hbreak : isBreak first = true) (ha : Spells a ls) (heq : ks ++ ls = ofSections secs)
    (hsections : ∀ sec ∈ secs, IsSection Q sec) : Lays Q (k ++ a) secs := by
  refine ⟨?_, hsections⟩
  rw [← heq]
  exact hk.follows hfirst hbreak ha

theorem Lays.single {w : String} {before : List Lexeme} (hw : Text.upper w ∈ sectionWords)
    (hk : Delimited k (.word w :: before)) {first : Atom} (hfirst : k.head? = some first)
    (hbreak : isBreak first = true) (hbefore : IsBody Q before) (h : IsPiece Q a ls) :
    Lays Q (k ++ a) [(w, before ++ ls)] := by
  refine .keyword hk hfirst hbreak h.spells (by rw [ofSections_singleton, List.cons_append]) ?_
  exact List.forall_mem_singleton.mpr ⟨hw, (isAdditive_isBody Q).append hbefore h.body⟩

/-- A section whose keyword is just its word. -/
theorem Lays.word {w : String} (hw : Text.upper w ∈ sectionWords) (hk : Delimited k [.word w])
    {first : Atom} (hfirst : k.head? = some first) (hbreak : isBreak first = true)
    (h : IsPiece Q a ls) : Lays Q (k ++ a) [(w, ls)] :=
  .single hw hk hfirst hbreak (isAdditive_isBody Q).nil h

/-- Rows of sections that are written one by one for the elements of a list. -/
theorem Lays.flatten {α : Type} {write : α → Result Sql} {secs : α → List StatementSection}
    {xs : List α} {pieces : List Sql} (h : xs.mapM write = .ok pieces)
    (hwrite : ∀ x ∈ xs, ∀ piece, write x = .ok piece → Lays Q piece.atoms (secs x)) :
    Lays Q (Sql.atoms pieces.flatten) (xs.flatMap secs) := by
  refine ⟨?_, ?_⟩
  · have hfollows := Follows.flatten h fun x hx piece hpiece => (hwrite x hx piece hpiece).follows
    rw [ofSections, List.flatMap_assoc]
    exact hfollows
  · intro sec hsec
    obtain ⟨x, hx, hsec⟩ := List.mem_flatMap.mp hsec
    obtain ⟨piece, hpiece⟩ : ∃ piece, write x = .ok piece := Result.exists_of_mem_of_mapM_eq_ok h hx
    exact (hwrite x hx piece hpiece).sections sec hsec

end Writing

/-- The lexeme is that word, in letters of either case. -/
def isWord (k : String) : Lexeme → Bool
  | .word s => Text.upper s = k
  | _ => false

def isConnective (x : Lexeme) : Bool := x.isWord "AND" || x.isWord "OR"

def conjuncts (condition : List Lexeme) : List (List Lexeme) :=
  pieces .round (isWord "AND") [] condition

/-- The alternatives of a condition, each with its conjuncts. -/
def alternatives (condition : List Lexeme) : List (List (List Lexeme)) :=
  (pieces .round (isWord "OR") [] condition).map conjuncts

/-- The lexemes stand by themselves: parentheses and square brackets are balanced, outside of them
there is neither `AND` nor `OR`, and every quote is closed. -/
structure IsSelfContained (a : List Lexeme) : Prop where
  closed : IsClosed .round isConnective a
  quotes : ∀ quote, .unclosed quote ∉ a

end Lexeme

def Connective.lexeme : Connective → Lexeme
  | and => .word "AND"
  | or => .word "OR"

/-- The items grouped into alternatives: an item behind `or` begins one, an item behind `and` belongs
to the one before it. What stands before the first item does not matter. -/
def Connective.grouped {α : Type} : List (Connective × α) → List (List α)
  | [] => []
  | [(_, item)] => [[item]]
  | (_, item) :: (.or, next) :: rest => [item] :: grouped ((.or, next) :: rest)
  | (_, item) :: (.and, next) :: rest => (grouped ((.and, next) :: rest)).modifyHead (item :: ·)

/-- The items with their connectives between them. -/
def Connective.chained : List (Connective × List Lexeme) → List Lexeme
  | [] => []
  | (_, first) :: rest => first ++ rest.flatMap fun item => item.1.lexeme :: item.2

namespace Lexeme

section Chained

theorem IsSelfContained.isClosed_and {a : List Lexeme} (h : IsSelfContained a) :
    IsClosed .round (isWord "AND") a :=
  h.closed.mono fun x hx => by rw [isConnective, hx, Bool.true_or]

theorem IsSelfContained.isClosed_or {a : List Lexeme} (h : IsSelfContained a) :
    IsClosed .round (isWord "OR") a :=
  h.closed.mono fun x hx => by rw [isConnective, hx, Bool.or_true]

/-- Items that stand by themselves are found again, grouped by their connectives. -/
theorem alternatives_chained {items : List (Connective × List Lexeme)} (hne : items ≠ [])
    (h : ∀ item ∈ items, IsSelfContained item.2) :
    alternatives (Connective.chained items) = Connective.grouped items := by
  induction items with
  | nil => exact absurd rfl hne
  | cons first rest ih =>
    obtain ⟨connective, item⟩ := first
    have hitem : IsSelfContained item := h _ List.mem_cons_self
    have hsingle : conjuncts item = [item] := hitem.isClosed_and.pieces_eq
    cases rest with
    | nil =>
      rw [Connective.chained, List.flatMap_nil, List.append_nil, alternatives,
        hitem.isClosed_or.pieces_eq, List.map_singleton, hsingle]
      rfl
    | cons next others =>
      obtain ⟨c, a⟩ := next
      have hrest := ih (List.cons_ne_nil _ _) fun x hx => h x (List.mem_cons_of_mem _ hx)
      have hchained : Connective.chained ((connective, item) :: (c, a) :: others) =
          item ++ c.lexeme :: Connective.chained ((c, a) :: others) := rfl
      rw [hchained, alternatives]
      cases c with
      | or =>
        have hcut := hitem.isClosed_or.pieces_append (x := .word "OR") ⟨rfl, rfl⟩ rfl
          (Connective.chained ((.or, a) :: others))
        rw [Connective.lexeme, hcut, List.map_cons, hsingle, Connective.grouped, ← hrest]
        rfl
      | and =>
        have hjoined : IsClosed .round (isWord "OR") (item ++ [.word "AND"]) :=
          hitem.isClosed_or.append (.singleton ⟨rfl, rfl⟩ rfl)
        obtain ⟨u, hu, hseparators⟩ := hjoined
        have hcut := pieces_append hu hseparators (Connective.chained ((.and, a) :: others))
        rw [List.append_assoc, List.singleton_append] at hcut
        rw [Connective.lexeme, hcut, Connective.grouped, ← hrest, alternatives]
        cases pieces .round (isWord "OR") [] (Connective.chained ((.and, a) :: others)) with
        | nil => rfl
        | cons p ps =>
          have hconjuncts : conjuncts (item ++ .word "AND" :: p) = item :: conjuncts p :=
            hitem.isClosed_and.pieces_append (x := .word "AND") ⟨rfl, rfl⟩ rfl p
          rw [List.modifyHead_cons, List.map_cons, List.append_assoc, List.singleton_append,
            hconjuncts]
          rfl

end Chained

/-- The names that the sections give to tables. -/
def introduced (secs : List StatementSection) : List String :=
  secs.filterMap fun sec =>
    if sec.1 = "FROM" ∨ sec.1 = "JOIN" then sec.2.getLast?.bind word? else none

/-- The conditions of the joins, each cut into its conjuncts; a join without `ON` has none. -/
def joinConditions : List StatementSection → List (List (List Lexeme))
  | [] => []
  | sec :: rest =>
    if sec.1 = "JOIN" then
      (match rest.head? with
        | some (next, condition) => if next = "ON" then conjuncts condition else []
        | none => []) :: joinConditions rest
    else joinConditions rest

end Lexeme

namespace Statement

open Lexeme

def sections (s : Statement) : List StatementSection := Lexeme.sections s.lexemes

/-- The statement is these sections, one after the other. -/
structure Consists (Q : String → Prop) (s : Statement) (secs : List StatementSection) : Prop where
  lexemes : s.lexemes = ofSections secs
  sections : ∀ sec ∈ secs, IsSection Q sec

section Consists
variable {Q : String → Prop} {s : Statement} {secs : List StatementSection}

theorem Consists.sections_eq (h : s.Consists Q secs) : s.sections = secs := by
  rw [Statement.sections, h.lexemes]
  exact sections_ofSections h.sections

theorem Consists.forall_mem_qualifiers (h : s.Consists Q secs) :
    ∀ w ∈ qualifiers s.lexemes, Q w := by
  rw [h.lexemes]
  exact forall_mem_qualifiers_ofSections h.sections

/-- A body that begins with a keyword and goes on with rows of sections. -/
theorem consists_of_tidy (htidy : s.body.Tidy) {k a b : List Atom} {ks ls : List Lexeme}
    {front others : List StatementSection} (hbody : s.body.atoms = k ++ a ++ b)
    (hk : Delimited k ks) (ha : Spells a ls) (heq : ks ++ ls = ofSections front)
    (hfront : ∀ sec ∈ front, IsSection Q sec) (hb : Lays Q b others) :
    s.Consists Q (front ++ others) := by
  refine ⟨?_, List.forall_mem_append.mpr ⟨hfront, hb.sections⟩⟩
  have hspells := (hk.append_spells ha).append_follows hb.follows
  rw [← hbody] at hspells
  rw [htidy.lexemes_eq, hspells.read_eq, heq, ofSections_append]

end Consists

/-- The condition of the statement, as alternatives of conjuncts. -/
def alternatives (s : Statement) : List (List (List Lexeme)) :=
  match s.sections.lookup "WHERE" with
  | some condition => Lexeme.alternatives condition
  | none => []

end Statement

end RecordMapper
