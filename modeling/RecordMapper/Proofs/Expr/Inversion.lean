import RecordMapper.Proofs.Expr.Grammar
import RecordMapper.Proofs.Statement.Nesting

/-!
# How a tree has been read

What a phrase is read of is balanced. The last step of a reading is told by the tree: its root was
made by the operator that stands between its parts, or the tree stands in parentheses.
-/

set_option autoImplicit false

namespace RecordMapper

open Lexeme

theorem Lexeme.isPlain_of_joint? {x : Lexeme} {l : Level} {build : Form → Form → Form}
    (h : x.joint? = some (l, build)) : x.IsPlain .withCase := by
  unfold joint? at h
  split at h
  · split at h
    · next hword =>
      subst hword
      decide
    · split at h
      · next hword =>
        subst hword
        decide
      · cases h
  · obtain ⟨op, hop, -⟩ := Option.map_eq_some_iff.mp h
    obtain rfl := Operator.sign_of_ofSign? hop
    cases op <;> decide
  · cases h

theorem NamePart.isPlain_lexeme {part : NamePart} (h : part.IsValid) :
    part.lexeme.IsPlain .withCase := by
  cases part with
  | delimited quote s => exact ⟨rfl, rfl⟩
  | regular s =>
    have hcase : s ≠ "CASE" := by
      rintro rfl
      exact h.2 (by decide)
    have hend : s ≠ "END" := by
      rintro rfl
      exact h.2 (by decide)
    constructor
    · simp [lexeme, closer?, Brackets.withCase, Brackets.round, hcase.symm]
    · simp [lexeme, closes, Brackets.withCase, Brackets.round, hend.symm]

theorem QualifiedName.isBalanced_lexemes {name : QualifiedName} (h : name.IsValid) :
    IsBalanced .withCase name.lexemes :=
  .of_forall (forall_mem_lexemes h (fun _ hpart => NamePart.isPlain_lexeme hpart) (by decide))

namespace Reads

variable {p : Phrase} {l m : Level} {a t : Form} {input middle rest : List Lexeme}

/-- What a phrase is read of is balanced. -/
theorem exists_balanced (h : Reads p input t rest) :
    ∃ used, input = used ++ rest ∧ IsBalanced .withCase used := by
  induction h with
  | chain _ _ _ ihfirst ihrest =>
    obtain ⟨first, rfl, hfirst⟩ := ihfirst
    obtain ⟨more, rfl, hmore⟩ := ihrest
    exact ⟨first ++ more, (List.append_assoc _ _ _).symm, hfirst.append hmore⟩
  | done => exact ⟨[], rfl, .nil⟩
  | join hjoint _ _ ihoperand ihrest =>
    obtain ⟨operand, rfl, hoperand⟩ := ihoperand
    obtain ⟨more, rfl, hmore⟩ := ihrest
    have hx := IsBalanced.singleton (isPlain_of_joint? hjoint)
    exact ⟨[_] ++ (operand ++ more), by simp, hx.append (hoperand.append hmore)⟩
  | isNull _ ih =>
    obtain ⟨more, rfl, hmore⟩ := ih
    have hx : IsBalanced .withCase [.word "IS", .word "NULL"] := ⟨_, rfl⟩
    exact ⟨_, rfl, hx.append hmore⟩
  | isNotNull _ ih =>
    obtain ⟨more, rfl, hmore⟩ := ih
    have hx : IsBalanced .withCase [.word "IS", .word "NOT", .word "NULL"] := ⟨_, rfl⟩
    exact ⟨_, rfl, hx.append hmore⟩
  | subscript _ _ ihindex ihrest =>
    obtain ⟨index, rfl, hindex⟩ := ihindex
    obtain ⟨more, rfl, hmore⟩ := ihrest
    have hx : IsBalanced .withCase ([.sign "["] ++ index ++ [.sign "]"]) :=
      .enclosed ⟨rfl, rfl, rfl⟩ hindex
    exact ⟨_, by simp, hx.append hmore⟩
  | not _ ih =>
    obtain ⟨inner, rfl, hinner⟩ := ih
    have hx : IsBalanced .withCase [.word "NOT"] := ⟨_, rfl⟩
    exact ⟨_, rfl, hx.append hinner⟩
  | affirmed _ ih => exact ih
  | number => exact ⟨[_], rfl, .singleton ⟨rfl, rfl⟩⟩
  | text => exact ⟨[_], rfl, .singleton ⟨rfl, rfl⟩⟩
  | null => exact ⟨[_], rfl, .singleton ⟨rfl, rfl⟩⟩
  | param => exact ⟨[_], rfl, .singleton ⟨rfl, rfl⟩⟩
  | column hname hinput => exact ⟨_, hinput, QualifiedName.isBalanced_lexemes hname⟩
  | parenthesised _ ih =>
    obtain ⟨inner, hinput, hinner⟩ := ih
    have hx : IsBalanced .withCase ([.sign "("] ++ inner ++ [.sign ")"]) :=
      .enclosed ⟨rfl, rfl, rfl⟩ hinner
    exact ⟨_, by simp [hinput], hx⟩
  | caseWhen _ _ _ ihc iht ihf =>
    obtain ⟨c, rfl, hc⟩ := ihc
    obtain ⟨t, rfl, ht⟩ := iht
    obtain ⟨f, rfl, hf⟩ := ihf
    have hwhen : IsBalanced .withCase [.word "WHEN"] := ⟨_, rfl⟩
    have hbranches := (hc.sides (x := .word "THEN") ⟨rfl, rfl⟩ ht).sides (x := .word "ELSE")
      ⟨rfl, rfl⟩ hf
    have hx : IsBalanced .withCase ([.word "CASE"] ++
        ([.word "WHEN"] ++ (c ++ [.word "THEN"] ++ t ++ [.word "ELSE"] ++ f)) ++ [.word "END"]) :=
      .enclosed ⟨rfl, rfl, rfl⟩ (hwhen.append hbranches)
    exact ⟨_, by simp, hx⟩

theorem exists_append (h : Reads p input t rest) : ∃ used, input = used ++ rest := by
  obtain ⟨used, hused, -⟩ := h.exists_balanced
  exact ⟨used, hused⟩

theorem length_le (h : Reads p input t rest) : rest.length ≤ input.length := by
  obtain ⟨used, rfl, -⟩ := h.exists_balanced
  rw [List.length_append]
  exact Nat.le_add_left _ _

/-- A whole phrase is read of something. -/
theorem length_lt (h : Reads (.whole l) input t rest) : rest.length < input.length := by
  generalize hp : Phrase.whole l = p at h
  induction h generalizing l with
  | chain _ hfirst hrest ihfirst ihrest => exact Nat.lt_of_le_of_lt hrest.length_le (ihfirst rfl)
  | affirmed _ ih => exact ih rfl
  | not hinner => exact Nat.lt_succ_of_le hinner.length_le
  | number => exact Nat.lt_succ_self _
  | text => exact Nat.lt_succ_self _
  | null => exact Nat.lt_succ_self _
  | param => exact Nat.lt_succ_self _
  | column hname hinput =>
    rw [hinput, List.length_append]
    exact Nat.lt_add_of_pos_left (Nat.succ_pos _)
  | parenthesised hinner =>
    have hle := hinner.length_le
    simp only [List.length_cons] at hle ⊢
    omega
  | caseWhen hc ht hf =>
    have hfirst := hc.length_le
    have hsecond := ht.length_le
    have hthird := hf.length_le
    simp only [List.length_cons] at hfirst hsecond hthird ⊢
    omega
  | _ => cases hp

/-- Where nothing more is read, the tree is what it was. -/
theorem eq_or_length_lt (h : Reads (.rest l a) input t rest) :
    t = a ∧ rest = input ∨ rest.length < input.length := by
  cases h with
  | done => exact .inl ⟨rfl, rfl⟩
  | join _ hoperand hrest =>
    have hfirst := hoperand.length_le
    have hsecond := hrest.length_le
    rw [List.length_cons]
    exact .inr (by omega)
  | isNull hrest => exact .inr (Nat.lt_succ_of_le (Nat.le_succ_of_le hrest.length_le))
  | isNotNull hrest =>
    exact .inr (Nat.lt_succ_of_le (Nat.le_succ_of_le (Nat.le_succ_of_le hrest.length_le)))
  | subscript hindex hrest =>
    have hfirst := hindex.length_le
    have hsecond := hrest.length_le
    simp only [List.length_cons] at hfirst ⊢
    exact .inr (by omega)

/-- A phrase that begins with a parenthesis is read at least to the one that closes it. -/
theorem length_le_of_parenthesis {inner : List Lexeme} (hinner : IsBalanced .withCase inner)
    (h : Reads (.whole l) (.sign "(" :: (inner ++ .sign ")" :: rest)) a middle) :
    middle.length ≤ rest.length := by
  obtain ⟨used, hused, hbalanced⟩ := h.exists_balanced
  cases used with
  | nil =>
    have hlt := h.length_lt
    rw [hused] at hlt
    exact absurd hlt (Nat.lt_irrefl _)
  | cons x used =>
    obtain ⟨rfl, htail⟩ := List.cons.inj hused
    obtain ⟨more, rfl⟩ := exists_of_enclosed_append ⟨rfl, rfl, rfl⟩ hinner hbalanced htail.symm
    have hrest : rest = more ++ middle := by simpa using htail
    rw [hrest, List.length_append]
    exact Nat.le_add_left _ _

/-- A tree that is read of exactly what stands in parentheses is read inside them. -/
theorem of_parentheses {inner : List Lexeme} (hinner : IsBalanced .withCase inner)
    (h : Reads (.whole l) (.sign "(" :: (inner ++ .sign ")" :: rest)) t rest) :
    Reads (.whole .disjunction) (inner ++ .sign ")" :: rest) t (.sign ")" :: rest) := by
  generalize hp : Phrase.whole l = p at h
  generalize hinput : Lexeme.sign "(" :: (inner ++ .sign ")" :: rest) = input at h
  induction h generalizing l with
  | chain _ hfirst hmore ihfirst _ =>
    subst hinput
    rcases hmore.eq_or_length_lt with ⟨rfl, rfl⟩ | hlt
    · exact ihfirst rfl rfl
    · exact absurd (hfirst.length_le_of_parenthesis hinner) (Nat.not_le_of_lt hlt)
  | affirmed _ ih => exact ih rfl hinput
  | not _ => cases hinput
  | parenthesised hdisjunction =>
    obtain rfl := List.tail_eq_of_cons_eq hinput
    exact hdisjunction
  | column hname hcolumn =>
    subst hinput
    exact absurd rfl ((QualifiedName.head_lexemes hname hcolumn).2.1 _)
  | number => cases hinput
  | text => cases hinput
  | null => cases hinput
  | param => cases hinput
  | caseWhen => cases hinput
  | _ => cases hp

/-- The root of the tree was made of what was read of its parts. -/
def Made (input rest : List Lexeme) : Form → Prop
  | .number _ | .text _ | .null | .column _ | .param _ => True
  | .binary a op b =>
    ∃ middle, Reads (.whole op.level) input a (.sign op.sign :: middle) ∧
      Reads (.whole op.level.tighter) middle b rest
  | .isNull a negated =>
    Reads (.whole .comparison) input a
      (.word "IS" :: ((if negated then [.word "NOT"] else []) ++ .word "NULL" :: rest))
  | .not e => ∃ inner, input = .word "NOT" :: inner ∧ Reads (.whole .negation) inner e rest
  | .and a b =>
    ∃ middle, Reads (.whole .conjunction) input a (.word "AND" :: middle) ∧
      Reads (.whole .negation) middle b rest
  | .or a b =>
    ∃ middle, Reads (.whole .disjunction) input a (.word "OR" :: middle) ∧
      Reads (.whole .conjunction) middle b rest
  | .caseWhen c t f =>
    ∃ first second third, input = .word "CASE" :: .word "WHEN" :: first ∧
      Reads (.whole .disjunction) first c (.word "THEN" :: second) ∧
      Reads (.whole .disjunction) second t (.word "ELSE" :: third) ∧
      Reads (.whole .disjunction) third f (.word "END" :: rest)
  | .arrayGet a i =>
    ∃ middle, Reads (.whole .element) input a (.sign "[" :: middle) ∧
      Reads (.whole .disjunction) middle i (.sign "]" :: rest)

theorem made_of_joint? {x : Lexeme} {build : Form → Form → Form} {b : Form}
    (hx : x.joint? = some (l, build)) (ha : Reads (.whole l) input a (x :: middle))
    (hb : Reads (.whole l.tighter) middle b rest) : Made input rest (build a b) := by
  unfold joint? at hx
  split at hx
  · split at hx
    · next hword =>
      obtain ⟨rfl, rfl⟩ := Prod.mk.inj (Option.some.inj hx)
      subst hword
      exact ⟨middle, ha, hb⟩
    · split at hx
      · next hword =>
        obtain ⟨rfl, rfl⟩ := Prod.mk.inj (Option.some.inj hx)
        subst hword
        exact ⟨middle, ha, hb⟩
      · cases hx
  · obtain ⟨op, hop, hx⟩ := Option.map_eq_some_iff.mp hx
    obtain ⟨rfl, rfl⟩ := Prod.mk.inj hx
    obtain rfl := Operator.sign_of_ofSign? hop
    exact ⟨middle, ha, hb⟩
  · cases hx

/-- What goes on behind a tree makes the root, unless nothing does. -/
theorem made_of_rest {before : List Lexeme} (h : Reads (.rest l a) input t rest)
    (hbefore : Reads (.whole l) before a input) : t = a ∧ rest = input ∨ Made before rest t := by
  generalize hp : Phrase.rest l a = p at h
  induction h generalizing l a with
  | done =>
    obtain ⟨rfl, rfl⟩ := Phrase.rest.inj hp
    exact .inl ⟨rfl, rfl⟩
  | join hjoint hoperand hrest _ ih =>
    obtain ⟨rfl, rfl⟩ := Phrase.rest.inj hp
    have hroot := made_of_joint? hjoint hbefore hoperand
    have hread := extend (isChain_of_joint? hjoint) hbefore (.join hjoint hoperand .done)
    rcases ih hread rfl with ⟨rfl, rfl⟩ | h
    · exact .inr hroot
    · exact .inr h
  | isNull _ ih =>
    obtain ⟨rfl, rfl⟩ := Phrase.rest.inj hp
    have hread := extend (l := .comparison) ⟨nofun, nofun⟩ hbefore (.isNull .done)
    rcases ih hread rfl with ⟨rfl, rfl⟩ | h
    · exact .inr hbefore
    · exact .inr h
  | isNotNull _ ih =>
    obtain ⟨rfl, rfl⟩ := Phrase.rest.inj hp
    have hread := extend (l := .comparison) ⟨nofun, nofun⟩ hbefore (.isNotNull .done)
    rcases ih hread rfl with ⟨rfl, rfl⟩ | h
    · exact .inr hbefore
    · exact .inr h
  | subscript hindex _ _ ih =>
    obtain ⟨rfl, rfl⟩ := Phrase.rest.inj hp
    have hread := extend (l := .element) ⟨nofun, nofun⟩ hbefore (.subscript hindex .done)
    rcases ih hread rfl with ⟨rfl, rfl⟩ | h
    · exact .inr ⟨_, hbefore, hindex⟩
    · exact .inr h
  | _ => cases hp

/-- The root of a tree was made of its parts, or all of it stands in parentheses. -/
theorem last_step (h : Reads (.whole l) input t rest) :
    Made input rest t ∨ ∃ inner, input = .sign "(" :: inner ∧
      Reads (.whole .disjunction) inner t (.sign ")" :: rest) := by
  generalize hp : Phrase.whole l = p at h
  induction h generalizing l with
  | chain hchain hfirst hmore ihfirst _ =>
    rcases made_of_rest hmore (.chain hchain hfirst .done) with ⟨rfl, rfl⟩ | hmade
    · exact ihfirst rfl
    · exact .inl hmade
  | not hinner => exact .inl ⟨_, rfl, hinner⟩
  | affirmed _ ih => exact ih rfl
  | number => exact .inl trivial
  | text => exact .inl trivial
  | null => exact .inl trivial
  | param => exact .inl trivial
  | column => exact .inl trivial
  | parenthesised hinner => exact .inr ⟨_, rfl, hinner⟩
  | caseWhen hc ht hf => exact .inl ⟨_, _, _, rfl, hc, ht, hf⟩
  | _ => cases hp

section Sides
variable {left right : List Lexeme} {x : Lexeme} (hx : x.IsPlain .withCase)
include hx

/-- Two parts with something plain between them do not stand in one pair of parentheses. -/
theorem made_of_sides (hleft : IsBalanced .withCase left)
    (h : Reads (.whole l) (left ++ x :: (right ++ .sign ")" :: rest)) t (.sign ")" :: rest)) :
    Made (left ++ x :: (right ++ .sign ")" :: rest)) (.sign ")" :: rest) t := by
  rcases h.last_step with hmade | ⟨inner, hinput, hinner⟩
  · exact hmade
  · obtain ⟨used, rfl, hused⟩ := hinner.exists_balanced
    have henclosed : IsClosed .withCase (fun _ => true) ([.sign "("] ++ used ++ [.sign ")"]) :=
      .enclosed ⟨rfl, rfl, rfl⟩ hused
    have heq : left ++ x :: right = [.sign "("] ++ used ++ [.sign ")"] := by
      have hall : (left ++ x :: right) ++ .sign ")" :: rest =
          ([.sign "("] ++ used ++ [.sign ")"]) ++ .sign ")" :: rest := by simpa using hinput
      exact List.append_cancel_right hall
    rw [← heq] at henclosed
    exact absurd (henclosed.not_append_cons hleft hx) (by decide)

theorem made_in_parentheses (hleft : IsBalanced .withCase left) (hright : IsBalanced .withCase right)
    (h : Reads (.whole l) (.sign "(" :: (left ++ x :: (right ++ .sign ")" :: rest))) t rest) :
    Made (left ++ x :: (right ++ .sign ")" :: rest)) (.sign ")" :: rest) t := by
  have hinner : IsBalanced .withCase (left ++ [x] ++ right) := hleft.sides hx hright
  have hread : Reads (.whole l) (.sign "(" :: ((left ++ [x] ++ right) ++ .sign ")" :: rest)) t
      rest := by simpa using h
  have hdisjunction := hread.of_parentheses hinner
  exact made_of_sides hx hleft (by simpa using hdisjunction)

/-- Where what stands between the parts is found in neither of them, each part is read by itself. -/
theorem middle_eq {isSeparator : Lexeme → Bool} (hseparator : isSeparator x = true)
    (hleft : IsClosed .withCase isSeparator left) (hright : IsClosed .withCase isSeparator right)
    (ha : Reads (.whole l) (left ++ x :: (right ++ rest)) a (x :: middle))
    (hmiddle : ∃ more, middle = more ++ rest) : middle = right ++ rest := by
  obtain ⟨used, hused, hbalanced⟩ := ha.exists_balanced
  obtain ⟨more, rfl⟩ := hmiddle
  have heq : used ++ x :: more = left ++ x :: right := by
    have hall : (used ++ x :: more) ++ rest = (left ++ x :: right) ++ rest := by
      simpa using hused.symm
    exact List.append_cancel_right hall
  rw [(split_unique hx hseparator hbalanced hleft hright heq).2]

end Sides

/-- An array and its index are each read by themselves. -/
theorem middle_eq_of_subscript {array index : List Lexeme} {i : Form}
    (harray : IsBalanced .withCase array) (hindex : IsBalanced .withCase index)
    (ha : Reads (.whole l) (array ++ .sign "[" :: (index ++ .sign "]" :: rest)) a
      (.sign "[" :: middle))
    (hi : Reads (.whole m) middle i (.sign "]" :: rest)) : middle = index ++ .sign "]" :: rest := by
  obtain ⟨used, hused, hbalanced⟩ := ha.exists_balanced
  obtain ⟨more, rfl, hmore⟩ := hi.exists_balanced
  have heq : used ++ .sign "[" :: more = array ++ .sign "[" :: index := by
    have hall : (used ++ .sign "[" :: more) ++ .sign "]" :: rest =
        (array ++ .sign "[" :: index) ++ .sign "]" :: rest := by simpa using hused.symm
    exact List.append_cancel_right hall
  rw [(split_unique_of_opening ⟨rfl, rfl, rfl⟩ hbalanced harray hindex hmore heq).2]

/-- What ends with a subscript does not stand in parentheses. -/
theorem made_of_subscript {array : List Lexeme}
    (h : Reads (.whole l) (array ++ .sign "]" :: rest) t rest) :
    Made (array ++ .sign "]" :: rest) rest t := by
  rcases h.last_step with hmade | ⟨inner, hinput, hinner⟩
  · exact hmade
  · obtain ⟨used, rfl, -⟩ := hinner.exists_balanced
    have hall : (array ++ [.sign "]"]) ++ rest = (.sign "(" :: used ++ [.sign ")"]) ++ rest := by
      simpa using hinput
    have hlast := List.append_inj' (List.append_cancel_right hall) rfl
    exact absurd hlast.2 (by decide)

end Reads

end RecordMapper
