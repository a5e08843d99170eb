import RecordMapper.Proofs.Statement.Lexeme

/-!
# What stands outside brackets

Lexemes are balanced if every closing one closes what was opened last. Of balanced lexemes those
that stand outside all brackets are kept in their order; a separator among them cuts the list in
one way only, whatever the brackets hold.
-/

set_option autoImplicit false

namespace RecordMapper

/-- Lexemes that open, each with the one that closes it. -/
abbrev Brackets := List (Lexeme × Lexeme)

def Brackets.round : Brackets := [(.sign "(", .sign ")"), (.sign "[", .sign "]")]

/-- In expressions `CASE` and `END` are brackets as well. -/
def Brackets.withCase : Brackets := (.word "CASE", .word "END") :: round

namespace Lexeme

/-- What closes the lexeme if it opens. -/
def closer? (brackets : Brackets) (x : Lexeme) : Option Lexeme :=
  (brackets.find? fun pair => pair.1 = x).map (·.2)

def closes (brackets : Brackets) (x : Lexeme) : Bool := brackets.any fun pair => pair.2 = x

/-- The lexeme neither opens nor closes. -/
structure IsPlain (brackets : Brackets) (x : Lexeme) : Prop where
  opens : x.closer? brackets = none
  closes : x.closes brackets = false

instance (brackets : Brackets) (x : Lexeme) : Decidable (x.IsPlain brackets) :=
  decidable_of_iff (x.closer? brackets = none ∧ x.closes brackets = false)
    ⟨fun h => ⟨h.1, h.2⟩, fun h => ⟨h.1, h.2⟩⟩

/-- The first of the two lexemes is closed by the second, which does nothing else. -/
structure IsPair (brackets : Brackets) (opening closing : Lexeme) : Prop where
  closer : opening.closer? brackets = some closing
  opens : closing.closer? brackets = none
  closes : closing.closes brackets = true

/-- What is awaited behind the lexeme, if `awaited` was before it. -/
def await? (brackets : Brackets) (awaited : List Lexeme) (x : Lexeme) : Option (List Lexeme) :=
  match x.closer? brackets with
  | some closer => some (closer :: awaited)
  | none =>
    if x.closes brackets then
      match awaited with
      | [] => none
      | first :: others => if x = first then some others else none
    else some awaited

/-- The lexemes outside all brackets, if the brackets are balanced. -/
def outer? (brackets : Brackets) : List Lexeme → List Lexeme → Option (List Lexeme)
  | awaited, [] => if awaited = [] then some [] else none
  | awaited, x :: rest => do
    let next ← x.await? brackets awaited
    let others ← outer? brackets next rest
    return if awaited = [] ∧ next = [] then x :: others else others

section Outer
variable {brackets : Brackets} {a b u v awaited stack : List Lexeme} {x y : Lexeme}

theorem await?_of_isPlain (h : x.IsPlain brackets) (awaited : List Lexeme) :
    x.await? brackets awaited = some awaited := by
  unfold await?
  rw [h.opens, h.closes]
  rfl

/-- What is awaited at the bottom does not matter as long as it is not reached. -/
theorem await?_append (h : x.await? brackets awaited = some u) (stack : List Lexeme) :
    x.await? brackets (awaited ++ stack) = some (u ++ stack) := by
  unfold await? at h ⊢
  split at h
  · obtain rfl := Option.some.inj h
    rfl
  · split at h
    · next hcloses =>
      rw [if_pos hcloses]
      split at h
      · cases h
      · split at h
        · next hx =>
          obtain rfl := Option.some.inj h
          rw [List.cons_append]
          exact if_pos hx
        · cases h
    · next hcloses =>
      obtain rfl := Option.some.inj h
      rw [if_neg hcloses]

theorem outer?_cons_eq_some (h : outer? brackets awaited (x :: a) = some u) :
    ∃ next v, x.await? brackets awaited = some next ∧ outer? brackets next a = some v ∧
      u = if awaited = [] ∧ next = [] then x :: v else v := by
  rw [outer?] at h
  obtain ⟨next, hnext, h⟩ := Option.bind_eq_some_iff.mp h
  obtain ⟨v, hv, h⟩ := Option.bind_eq_some_iff.mp h
  exact ⟨next, v, hnext, hv, (Option.some.inj h).symm⟩

theorem outer?_cons {next : List Lexeme} (h : x.await? brackets awaited = some next)
    (a : List Lexeme) : outer? brackets awaited (x :: a) = (outer? brackets next a).map fun others =>
      if awaited = [] ∧ next = [] then x :: others else others := by
  rw [outer?, h, Option.bind_eq_bind, Option.bind_some]
  cases outer? brackets next a <;> rfl

theorem outer?_cons_of_isPlain (h : x.IsPlain brackets) (a : List Lexeme) :
    outer? brackets [] (x :: a) = (outer? brackets [] a).map (x :: ·) :=
  outer?_cons (await?_of_isPlain h []) a

/-- Behind balanced lexemes one starts anew. -/
theorem outer?_append (h : outer? brackets awaited a = some u) (b : List Lexeme) :
    outer? brackets awaited (a ++ b) = (outer? brackets [] b).map (u ++ ·) := by
  induction a generalizing awaited u with
  | nil =>
    rw [outer?] at h
    split at h
    · next hawaited =>
      obtain rfl := Option.some.inj h
      rw [hawaited, List.nil_append]
      cases outer? brackets [] b <;> rfl
    · cases h
  | cons x a ih =>
    obtain ⟨next, v, hnext, hv, rfl⟩ := outer?_cons_eq_some h
    rw [List.cons_append, outer?_cons hnext, ih hv, Option.map_map]
    refine congrArg (fun f => (outer? brackets [] b).map f) (funext fun others => ?_)
    rw [Function.comp_apply]
    split <;> rfl

/-- Balanced lexemes in the midst of brackets are passed over. -/
theorem outer?_skip (h : outer? brackets awaited a = some u) (hstack : stack ≠ [])
    (b : List Lexeme) : outer? brackets (awaited ++ stack) (a ++ b) = outer? brackets stack b := by
  induction a generalizing awaited u with
  | nil =>
    rw [outer?] at h
    split at h
    · next hawaited => rw [hawaited, List.nil_append, List.nil_append]
    · cases h
  | cons x a ih =>
    obtain ⟨next, v, hnext, hv, rfl⟩ := outer?_cons_eq_some h
    rw [List.cons_append, outer?_cons (await?_append hnext stack), ih hv]
    have hne : ¬ (awaited ++ stack = [] ∧ next ++ stack = []) := by
      rintro ⟨hnil, -⟩
      exact hstack (List.append_eq_nil_iff.mp hnil).2
    simp only [if_neg hne]
    exact Option.map_id_apply

/-- What closes a bracket that was opened before does not belong to balanced lexemes. -/
theorem outer?_append_eq_none (h : outer? brackets (awaited ++ [x]) a = some u) (b : List Lexeme) :
    outer? brackets awaited (a ++ b) = none := by
  induction a generalizing awaited u with
  | nil =>
    rw [outer?, if_neg (by simp)] at h
    cases h
  | cons y a ih =>
    obtain ⟨next, v, hnext, hv, rfl⟩ := outer?_cons_eq_some h
    rw [List.cons_append, outer?]
    cases hbelow : y.await? brackets awaited with
    | none => rfl
    | some below =>
      rw [await?_append hbelow [x]] at hnext
      obtain rfl := Option.some.inj hnext
      rw [Option.bind_eq_bind, Option.bind_some, ih hv]
      rfl

section Enclosed
variable {opening closing : Lexeme} (hpair : IsPair brackets opening closing)
include hpair

theorem await?_opening (awaited : List Lexeme) :
    opening.await? brackets awaited = some (closing :: awaited) := by
  unfold await?
  rw [hpair.closer]

/-- Balanced lexemes in brackets are not seen from outside. -/
theorem outer?_enclosed (ha : outer? brackets [] a = some u) (b : List Lexeme) :
    outer? brackets [] (opening :: (a ++ closing :: b)) = outer? brackets [] b := by
  have hclosing : closing.await? brackets [closing] = some [] := by
    unfold await?
    rw [hpair.opens, hpair.closes]
    simp only [↓reduceIte]
  have hskip : outer? brackets [closing] (a ++ closing :: b) =
      outer? brackets [closing] (closing :: b) := outer?_skip ha (List.cons_ne_nil _ _) _
  rw [outer?_cons (await?_opening hpair []), hskip, outer?_cons hclosing, Option.map_map]
  exact Option.map_id_apply

end Enclosed

end Outer

/-- Balanced lexemes with no separator outside the brackets. -/
def IsClosed (brackets : Brackets) (isSeparator : Lexeme → Bool) (a : List Lexeme) : Prop :=
  ∃ u, outer? brackets [] a = some u ∧ ∀ x ∈ u, isSeparator x = false

def IsBalanced (brackets : Brackets) (a : List Lexeme) : Prop :=
  ∃ u, outer? brackets [] a = some u

namespace IsClosed
variable {brackets : Brackets} {isSeparator : Lexeme → Bool} {a b : List Lexeme} {x y : Lexeme}

theorem isBalanced (h : IsClosed brackets isSeparator a) : IsBalanced brackets a := by
  obtain ⟨u, hu, -⟩ := h
  exact ⟨u, hu⟩

theorem nil : IsClosed brackets isSeparator [] := ⟨[], rfl, List.forall_mem_nil _⟩

theorem append (ha : IsClosed brackets isSeparator a) (hb : IsClosed brackets isSeparator b) :
    IsClosed brackets isSeparator (a ++ b) := by
  obtain ⟨u, hu, huseparators⟩ := ha
  obtain ⟨v, hv, hvseparators⟩ := hb
  refine ⟨u ++ v, by rw [outer?_append hu, hv, Option.map_some], ?_⟩
  intro z hz
  rcases List.mem_append.mp hz with hz | hz
  · exact huseparators z hz
  · exact hvseparators z hz

theorem singleton (hx : x.IsPlain brackets) (hseparator : isSeparator x = false) :
    IsClosed brackets isSeparator [x] := by
  refine ⟨[x], outer?_cons_of_isPlain hx [], ?_⟩
  intro z hz
  obtain rfl := List.mem_singleton.mp hz
  exact hseparator

theorem of_forall (h : ∀ x ∈ a, x.IsPlain brackets ∧ isSeparator x = false) :
    IsClosed brackets isSeparator a := by
  induction a with
  | nil => exact .nil
  | cons x a ih =>
    obtain ⟨hplain, hseparator⟩ := h x List.mem_cons_self
    exact (singleton hplain hseparator).append (ih fun y hy => h y (List.mem_cons_of_mem x hy))

/-- What stands in brackets may hold separators. -/
theorem enclosed (hpair : IsPair brackets x y) (ha : IsBalanced brackets a) :
    IsClosed brackets isSeparator ([x] ++ a ++ [y]) := by
  obtain ⟨u, hu⟩ := ha
  refine ⟨[], ?_, List.forall_mem_nil _⟩
  rw [List.append_assoc]
  exact outer?_enclosed hpair hu []

end IsClosed

namespace IsBalanced
variable {brackets : Brackets} {a b : List Lexeme} {x : Lexeme}

theorem append (ha : IsBalanced brackets a) (hb : IsBalanced brackets b) :
    IsBalanced brackets (a ++ b) := by
  obtain ⟨u, hu⟩ := ha
  obtain ⟨v, hv⟩ := hb
  exact ⟨u ++ v, by rw [outer?_append hu, hv, Option.map_some]⟩

theorem singleton (hx : x.IsPlain brackets) : IsBalanced brackets [x] :=
  ⟨[x], outer?_cons_of_isPlain hx []⟩

theorem nil : IsBalanced brackets [] := ⟨[], rfl⟩

theorem of_forall (h : ∀ x ∈ a, x.IsPlain brackets) : IsBalanced brackets a := by
  have hclosed : IsClosed brackets (fun _ => false) a := .of_forall fun x hx => ⟨h x hx, rfl⟩
  exact hclosed.isBalanced

theorem enclosed {y : Lexeme} (hpair : IsPair brackets x y) (ha : IsBalanced brackets a) :
    IsBalanced brackets ([x] ++ a ++ [y]) := by
  have hclosed : IsClosed brackets (fun _ => false) ([x] ++ a ++ [y]) := .enclosed hpair ha
  exact hclosed.isBalanced

/-- Two parts with something plain between them. -/
theorem sides (ha : IsBalanced brackets a) (hx : x.IsPlain brackets) (hb : IsBalanced brackets b) :
    IsBalanced brackets (a ++ [x] ++ b) :=
  (ha.append (singleton hx)).append hb

end IsBalanced

section Cut
variable {brackets : Brackets} {isSeparator : Lexeme → Bool} {a b c d rest rest' : List Lexeme}
  {x : Lexeme}

theorem IsClosed.mono {isOther : Lexeme → Bool}
    (hother : ∀ x, isOther x = true → isSeparator x = true)
    (h : IsClosed brackets isSeparator a) : IsClosed brackets isOther a := by
  obtain ⟨u, hu, hseparators⟩ := h
  refine ⟨u, hu, ?_⟩
  intro x hx
  rw [Bool.eq_false_iff]
  intro htrue
  have hseparator := hother x htrue
  rw [hseparators x hx] at hseparator
  cases hseparator

theorem IsBalanced.of_append (h : IsBalanced brackets (a ++ b)) (ha : IsBalanced brackets a) :
    IsBalanced brackets b := by
  obtain ⟨w, hw⟩ := h
  obtain ⟨u, hu⟩ := ha
  rw [outer?_append hu] at hw
  obtain ⟨v, hv, -⟩ := Option.map_eq_some_iff.mp hw
  exact ⟨v, hv⟩

/-- A separator behind balanced lexemes stands outside all brackets. -/
theorem IsClosed.not_append_cons (h : IsClosed brackets isSeparator (a ++ x :: b))
    (ha : IsBalanced brackets a) (hx : x.IsPlain brackets) : isSeparator x = false := by
  obtain ⟨w, hw, hseparators⟩ := h
  obtain ⟨u, hu⟩ := ha
  rw [outer?_append hu, outer?_cons_of_isPlain hx, Option.map_map] at hw
  obtain ⟨v, -, rfl⟩ := Option.map_eq_some_iff.mp hw
  exact hseparators x (List.mem_append_right u List.mem_cons_self)

/-- A separator that stands outside all brackets cuts the list in one way. -/
theorem split_unique (hx : x.IsPlain brackets) (hseparator : isSeparator x = true)
    (ha : IsBalanced brackets a) (hb : IsClosed brackets isSeparator b)
    (hc : IsClosed brackets isSeparator c) (h : a ++ x :: d = b ++ x :: c) : a = b ∧ d = c := by
  rcases List.append_eq_append_iff.mp h with ⟨z, hz, htail⟩ | ⟨z, hz, htail⟩
  · cases z with
    | nil =>
      rw [List.append_nil] at hz
      exact ⟨hz.symm, List.tail_eq_of_cons_eq htail⟩
    | cons y z =>
      obtain ⟨rfl, -⟩ := List.cons.inj htail
      rw [hz] at hb
      rw [hb.not_append_cons ha hx] at hseparator
      cases hseparator
  · cases z with
    | nil =>
      rw [List.append_nil] at hz
      exact ⟨hz, (List.tail_eq_of_cons_eq htail).symm⟩
    | cons y z =>
      obtain ⟨rfl, rfl⟩ := List.cons.inj htail
      rw [hz] at ha
      obtain ⟨w, hw⟩ := ha.of_append hb.isBalanced
      rw [outer?_cons_of_isPlain hx] at hw
      obtain ⟨v, hv, -⟩ := Option.map_eq_some_iff.mp hw
      rw [hc.not_append_cons ⟨v, hv⟩ hx] at hseparator
      cases hseparator

section Opening
variable {opening closing : Lexeme} (hpair : IsPair brackets opening closing)
include hpair

theorem exists_outer?_of_opening (h : IsBalanced brackets (opening :: a)) :
    ∃ u, outer? brackets [closing] a = some u := by
  obtain ⟨w, hw⟩ := h
  obtain ⟨next, v, hnext, hv, -⟩ := outer?_cons_eq_some hw
  rw [await?_opening hpair] at hnext
  obtain rfl := Option.some.inj hnext
  exact ⟨v, hv⟩

/-- Balanced lexemes do not end inside a bracket. -/
theorem IsBalanced.not_append_of_opening (h : IsBalanced brackets (a ++ b))
    (ha : IsBalanced brackets (opening :: a)) : False := by
  obtain ⟨u, hu⟩ := exists_outer?_of_opening hpair ha
  obtain ⟨w, hw⟩ := h
  have hnone : outer? brackets [] (a ++ b) = none := outer?_append_eq_none hu b
  rw [hnone] at hw
  cases hw

/-- Balanced lexemes that begin with an opening one reach at least to the one that closes it. -/
theorem exists_of_enclosed_append (ha : IsBalanced brackets a)
    (hb : IsBalanced brackets (opening :: b)) (h : b ++ rest' = a ++ closing :: rest) :
    ∃ more, b = a ++ closing :: more := by
  rcases List.append_eq_append_iff.mp h with ⟨z, rfl, htail⟩ | ⟨z, rfl, htail⟩
  · exact (ha.not_append_of_opening hpair hb).elim
  · cases z with
    | nil =>
      rw [List.append_nil] at hb
      have hempty : IsBalanced brackets (a ++ []) := by rwa [List.append_nil]
      exact (hempty.not_append_of_opening hpair hb).elim
    | cons y z =>
      obtain ⟨rfl, -⟩ := List.cons.inj htail
      exact ⟨z, rfl⟩

/-- Between balanced lexemes an opening one has one place. -/
theorem split_unique_of_opening (ha : IsBalanced brackets a) (hb : IsBalanced brackets b)
    (hc : IsBalanced brackets c) (hd : IsBalanced brackets d)
    (h : a ++ opening :: d = b ++ opening :: c) : a = b ∧ d = c := by
  rcases List.append_eq_append_iff.mp h with ⟨z, rfl, htail⟩ | ⟨z, rfl, htail⟩
  · cases z with
    | nil => exact ⟨(List.append_nil a).symm, List.tail_eq_of_cons_eq htail⟩
    | cons y z =>
      obtain ⟨rfl, rfl⟩ := List.cons.inj htail
      exact (hd.not_append_of_opening hpair (hb.of_append ha)).elim
  · cases z with
    | nil => exact ⟨List.append_nil b, (List.tail_eq_of_cons_eq htail).symm⟩
    | cons y z =>
      obtain ⟨rfl, rfl⟩ := List.cons.inj htail
      exact (hc.not_append_of_opening hpair (ha.of_append hb)).elim

end Opening

end Cut

/-- The pieces between the separators that stand outside all brackets. -/
def pieces (brackets : Brackets) (isSeparator : Lexeme → Bool) :
    List Lexeme → List Lexeme → List (List Lexeme)
  | _, [] => [[]]
  | awaited, x :: rest =>
    let next := (x.await? brackets awaited).getD awaited
    if awaited = [] ∧ next = [] ∧ isSeparator x then [] :: pieces brackets isSeparator [] rest
    else (pieces brackets isSeparator next rest).modifyHead (x :: ·)

section Pieces
variable {brackets : Brackets} {isSeparator : Lexeme → Bool} {a u awaited : List Lexeme} {x : Lexeme}

theorem pieces_append (h : outer? brackets awaited a = some u)
    (hu : ∀ x ∈ u, isSeparator x = false) (b : List Lexeme) :
    pieces brackets isSeparator awaited (a ++ b) =
      (pieces brackets isSeparator [] b).modifyHead (a ++ ·) := by
  induction a generalizing awaited u with
  | nil =>
    rw [outer?] at h
    split at h
    · next hawaited =>
      rw [hawaited, List.nil_append]
      cases pieces brackets isSeparator [] b <;> rfl
    · cases h
  | cons x a ih =>
    obtain ⟨next, v, hnext, hv, rfl⟩ := outer?_cons_eq_some h
    have hrest : ∀ y ∈ v, isSeparator y = false := by
      intro y hy
      refine hu y ?_
      split
      · exact List.mem_cons_of_mem x hy
      · exact hy
    have hkept : ¬ (awaited = [] ∧ next = [] ∧ isSeparator x = true) := by
      rintro ⟨hawaited, hempty, hx⟩
      rw [if_pos ⟨hawaited, hempty⟩] at hu
      rw [hu x List.mem_cons_self] at hx
      cases hx
    rw [List.cons_append, pieces, hnext, Option.getD_some]
    simp only [if_neg hkept, ih hv hrest, List.modifyHead_modifyHead]
    rfl

theorem IsClosed.pieces_eq (h : IsClosed brackets isSeparator a) :
    pieces brackets isSeparator [] a = [a] := by
  obtain ⟨u, hu, hseparators⟩ := h
  have hall := pieces_append hu hseparators []
  rw [List.append_nil] at hall
  rw [hall, pieces, List.modifyHead_cons, List.append_nil]

theorem IsClosed.pieces_append (h : IsClosed brackets isSeparator a) (hx : x.IsPlain brackets)
    (hseparator : isSeparator x = true) (b : List Lexeme) :
    pieces brackets isSeparator [] (a ++ x :: b) = a :: pieces brackets isSeparator [] b := by
  obtain ⟨u, hu, hseparators⟩ := h
  rw [Lexeme.pieces_append hu hseparators, pieces, await?_of_isPlain hx]
  simp only [Option.getD_some, hseparator, and_self, ↓reduceIte, List.modifyHead_cons,
    List.append_nil]

/-- Closed lists with separators between them are found again. -/
theorem pieces_intercalate {items : List (List Lexeme)} (hne : items ≠ [])
    (h : ∀ item ∈ items, IsClosed brackets isSeparator item) (hx : x.IsPlain brackets)
    (hseparator : isSeparator x = true) :
    pieces brackets isSeparator [] ([x].intercalate items) = items := by
  induction items using List.twoStepInduction with
  | nil => exact absurd rfl hne
  | singleton item =>
    rw [List.intercalate_singleton]
    exact (h item List.mem_cons_self).pieces_eq
  | cons_cons item next others _ ih =>
    have hrest := ih next (List.cons_ne_nil _ _) fun y hy => h y (List.mem_cons_of_mem item hy)
    rw [List.intercalate_cons_cons, List.append_assoc, List.singleton_append,
      (h item List.mem_cons_self).pieces_append hx hseparator, hrest]

end Pieces

end Lexeme

end RecordMapper
