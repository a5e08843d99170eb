import RecordMapper.Proofs.Statement.Tidy
import RecordMapper.Text.Quoted

/-!
# Reading string literals back

A product reads a string literal up to the first quote that is not doubled. Some take a backslash
for an escape as well, by which the next character stands for itself. Literals are written with
their quotes doubled and their backslashes as they are; what is read is what was written exactly if
no backslash is read as an escape, provided that no further quote stands behind the literal.

That no quote stands there is a matter of the fragments: what may begin with a quote is always
followed by a fragment that begins with something else.
-/

set_option autoImplicit false

namespace RecordMapper

/-- Whether a backslash in a string literal escapes the next character, as the product is set up
from the start. -/
def Product.escapesWithBackslash : Product → Bool
  | mySql => true
  | _ => false

namespace Text

/-- What a literal stands for and what is left behind it, read from behind its opening quote. -/
def literalBody? (escapes : Bool) : List Char → Option (List Char × List Char)
  | [] => none
  | '\'' :: '\'' :: rest => (literalBody? escapes rest).map fun (t, behind) => ('\'' :: t, behind)
  | '\'' :: rest => some ([], rest)
  | '\\' :: c :: rest =>
    if escapes then (literalBody? escapes rest).map fun (t, behind) => (c :: t, behind)
    else (literalBody? escapes (c :: rest)).map fun (t, behind) => ('\\' :: t, behind)
  | c :: rest => (literalBody? escapes rest).map fun (t, behind) => (c :: t, behind)

/-- The string literal at the beginning of a text, and the text behind it. -/
def literal? (escapes : Bool) (s : String) : Option (String × String) :=
  match s.toList with
  | '\'' :: rest =>
    (literalBody? escapes rest).map fun (t, behind) => (String.ofList t, String.ofList behind)
  | _ => none

theorem literalBody?_cons {escapes : Bool} {c : Char} {rest : List Char} (hquote : c ≠ '\'')
    (hescape : escapes = true → c ≠ '\\') :
    literalBody? escapes (c :: rest) =
      (literalBody? escapes rest).map fun (t, behind) => (c :: t, behind) := by
  by_cases hc : c = '\\'
  · subst hc
    cases rest with
    | nil => simp [literalBody?]
    | cons d rest =>
      have hplain : escapes = false := by
        cases escapes with
        | true => exact absurd rfl (hescape rfl)
        | false => rfl
      simp [literalBody?, hplain]
  · rw [literalBody?] <;> simp_all

theorem literalBody?_doubled {escapes : Bool} {t rest : List Char}
    (hescape : escapes = true → '\\' ∉ t) (hrest : rest.head? ≠ some '\'') :
    literalBody? escapes (doubled '\'' t ++ '\'' :: rest) = some (t, rest) := by
  induction t with
  | nil =>
    cases rest with
    | nil => rfl
    | cons c rest =>
      have hc : c ≠ '\'' := fun h => hrest (congrArg some h)
      simp [doubled, literalBody?, hc]
  | cons c t ih =>
    have htail := ih fun h hmem => hescape h (List.mem_cons_of_mem c hmem)
    by_cases hc : c = '\''
    · subst hc
      simp [doubled, literalBody?, htail]
    · have hplain : escapes = true → c ≠ '\\' := by
        rintro h rfl
        exact hescape h List.mem_cons_self
      simp only [doubled, if_neg hc, List.cons_append]
      rw [literalBody?_cons hc hplain, htail, Option.map_some]

/-- Where a backslash escapes, each one that is read stands behind another. -/
theorem count_literalBody? {cs t rest : List Char} (h : literalBody? true cs = some (t, rest)) :
    ∃ read, cs = read ++ rest ∧ 2 * t.count '\\' ≤ read.count '\\' := by
  -- what a step reads goes before what the steps behind it read
  have step (front : List Char) {cs t' : List Char} {c : Char}
      (hcount : 2 * [c].count '\\' ≤ front.count '\\')
      (ih : ∀ {t : List Char}, literalBody? true cs = some (t, rest) →
        ∃ read, cs = read ++ rest ∧ 2 * t.count '\\' ≤ read.count '\\')
      (h : (literalBody? true cs).map (fun (t, behind) => (c :: t, behind)) = some (t', rest)) :
      ∃ read, front ++ cs = read ++ rest ∧ 2 * t'.count '\\' ≤ read.count '\\' := by
    obtain ⟨⟨u, behind⟩, hu, heq⟩ := Option.map_eq_some_iff.mp h
    obtain ⟨rfl, rfl⟩ := Prod.mk.inj heq
    obtain ⟨read, rfl, hread⟩ := ih hu
    refine ⟨front ++ read, (List.append_assoc front read behind).symm, ?_⟩
    rw [← List.singleton_append, List.count_append, List.count_append]
    omega
  fun_induction literalBody? true cs generalizing t with
  | case1 => cases h
  | case2 cs ih => exact step ['\'', '\''] (by decide) ih h
  | case3 cs hnext =>
    obtain ⟨rfl, rfl⟩ := Prod.mk.inj (Option.some.inj h)
    exact ⟨['\''], rfl, by decide⟩
  | case4 c cs hescapes ih =>
    refine step ['\\', c] ?_ ih h
    rw [List.count_cons_self, Nat.mul_comm]
    have hle : [c].count '\\' ≤ 1 := List.count_le_length
    omega
  | case5 c cs hescapes ih => exact absurd rfl hescapes
  | case6 c cs hdoubled hquote hescape ih =>
    refine step [c] ?_ ih h
    have hc : c ≠ '\\' := by
      intro hc
      cases cs with
      | nil => cases h
      | cons d cs => exact hescape d cs hc rfl
    have hzero : [c].count '\\' = 0 := List.count_eq_zero.mpr (by simpa using hc.symm)
    omega

/-- A text is read back from its literal, and what is behind it left alone, exactly if none of its
characters is read as an escape. -/
theorem literal?_literal_iff {escapes : Bool} {t behind : String}
    (hbehind : behind.toList.head? ≠ some '\'') :
    literal? escapes (literal t ++ behind) = some (t, behind) ↔
      (escapes = true → '\\' ∉ t.toList) := by
  have hread : literal? escapes (literal t ++ behind) =
      (literalBody? escapes (doubled '\'' t.toList ++ '\'' :: behind.toList)).map
        fun (t, behind) => (String.ofList t, String.ofList behind) := by
    simp [literal?, literal, quoted]
  rw [hread]
  constructor
  · intro h hescapes hmem
    subst hescapes
    obtain ⟨⟨u, rest⟩, hu, heq⟩ := Option.map_eq_some_iff.mp h
    obtain ⟨ht, hrest⟩ := Prod.mk.inj heq
    obtain rfl : u = t.toList := by rw [← ht, String.toList_ofList]
    obtain rfl : rest = behind.toList := by rw [← hrest, String.toList_ofList]
    obtain ⟨read, hsplit, hcount⟩ := count_literalBody? hu
    -- as many backslashes are read as are written, so none can have escaped another
    rw [List.append_cons] at hsplit
    obtain rfl := List.append_cancel_right hsplit
    rw [List.count_append, count_doubled, if_neg (by decide)] at hcount
    have hpos : 0 < t.toList.count '\\' := List.count_pos_iff.mpr hmem
    have hquote : ['\''].count '\\' = 0 := by decide
    omega
  · intro hescape
    simp [literalBody?_doubled hescape hbehind]

end Text

namespace Sql

/-- The text begins with a character that is not a quote. -/
def setsOff (s : String) : Bool :=
  match s.toList with
  | [] => false
  | c :: _ => c ≠ '\''

/-- The piece begins with a fragment that is written, and not with a quote first. -/
def Divides : Sql → Prop
  | [] => False
  | .text s :: _ => setsOff s = true
  | .param _ :: _ => True

/-- Behind every fragment that begins with a quote stands one that does not. -/
def Guarded : Sql → Prop
  | [] => True
  | .text s :: rest => (s.toList.head? = some '\'' → Divides rest) ∧ Guarded rest
  | .param _ :: rest => Guarded rest

/-- Only the last fragment may begin with a quote and have nothing behind it. -/
def Closed (a : Sql) : Prop := ∀ b, Divides b → Guarded b → Guarded (a ++ b)

/-- What can be put behind any closed piece. -/
def Follows (b : Sql) : Prop := ∀ a, Closed a → Closed (a ++ b)

theorem setsOff_append {s : String} (h : setsOff s = true) (t : String) : setsOff (s ++ t) = true := by
  unfold setsOff at h ⊢
  rw [String.toList_append]
  cases hs : s.toList with
  | nil =>
    rw [hs] at h
    cases h
  | cons c rest =>
    rw [hs] at h
    exact h

theorem head?_ne_of_setsOff {s : String} (h : setsOff s = true) : s.toList.head? ≠ some '\'' := by
  unfold setsOff at h
  cases hs : s.toList with
  | nil => exact nofun
  | cons c rest =>
    rw [hs] at h
    intro heq
    exact of_decide_eq_true h (Option.some.inj heq)

theorem Divides.append {a : Sql} (h : Divides a) (b : Sql) : Divides (a ++ b) := by
  cases a with
  | nil => exact h.elim
  | cons f rest =>
    cases f with
    | text s => exact h
    | param v => exact trivial

theorem Guarded.append {a b : Sql} (ha : Guarded a) (hb : Guarded b) : Guarded (a ++ b) := by
  induction a with
  | nil => exact hb
  | cons f rest ih =>
    cases f with
    | text s => exact ⟨fun hs => (ha.1 hs).append b, ih ha.2⟩
    | param v => exact ih ha

theorem guarded_text {s : String} (h : s.toList.head? ≠ some '\'') : Guarded (text s) :=
  ⟨fun hs => absurd hs h, trivial⟩

theorem guarded_param (v : Value) : Guarded (param v) := trivial

theorem Guarded.closed {a : Sql} (h : Guarded a) : Closed a := fun _ _ hb => h.append hb

theorem closed_text (s : String) : Closed (text s) := fun _ hdivides hb => ⟨fun _ => hdivides, hb⟩

theorem Guarded.append_closed {a b : Sql} (ha : Guarded a) (hb : Closed b) : Closed (a ++ b) := by
  intro c hdivides hc
  rw [List.append_assoc]
  exact ha.append (hb c hdivides hc)

theorem Closed.append_text {a : Sql} {s : String} (ha : Closed a) (hs : setsOff s = true) :
    Guarded (a ++ text s) :=
  ha _ hs (guarded_text (head?_ne_of_setsOff hs))

theorem guarded_enclosed {before after : String} {a : Sql} (ha : Closed a)
    (hbefore : setsOff before = true) (hafter : setsOff after = true) :
    Guarded (text before ++ a ++ text after) := by
  rw [List.append_assoc]
  apply Guarded.append
  · exact guarded_text (head?_ne_of_setsOff hbefore)
  · exact ha.append_text hafter

theorem guarded_sides {before between after : String} {a b : Sql} (ha : Closed a) (hb : Closed b)
    (hbefore : setsOff before = true) (hbetween : setsOff between = true)
    (hafter : setsOff after = true) :
    Guarded (text before ++ a ++ text between ++ b ++ text after) := by
  have hfront := guarded_enclosed ha hbefore hbetween
  rw [List.append_assoc]
  apply hfront.append
  exact hb.append_text hafter

theorem Follows.nil : Follows [] := by
  intro a ha
  rw [List.append_nil]
  exact ha

theorem Follows.append {b c : Sql} (hb : Follows b) (hc : Follows c) : Follows (b ++ c) := by
  intro a ha
  rw [← List.append_assoc]
  exact hc _ (hb a ha)

theorem Closed.follows {b : Sql} (hb : Closed b) (hdivides : Divides b) : Follows b := by
  intro a ha c hc hguarded
  rw [List.append_assoc]
  exact ha _ (hdivides.append c) (hb c hc hguarded)

theorem Follows.flatten {items : List Sql} (h : ∀ item ∈ items, Follows item) :
    Follows items.flatten := by
  induction items with
  | nil => exact .nil
  | cons item rest ih =>
    rw [List.flatten_cons]
    apply (h item List.mem_cons_self).append
    exact ih fun other hother => h other (List.mem_cons_of_mem item hother)

theorem guarded_commas {items : List Sql} (h : ∀ item ∈ items, Guarded item) :
    Guarded (commas items) := by
  have hcomma : Guarded (text ", ") := guarded_text (head?_ne_of_setsOff (by decide))
  unfold commas
  induction items using List.twoStepInduction with
  | nil => exact trivial
  | singleton item => exact h item List.mem_cons_self
  | cons_cons item next others _ ih =>
    rw [separated]
    apply ((h item List.mem_cons_self).append hcomma).append
    exact ih next fun other hother => h other (List.mem_cons_of_mem item hother)

theorem closed_separated {separator : String} (hseparator : setsOff separator = true)
    {items : List Sql} (h : ∀ item ∈ items, Closed item) : Closed (separated separator items) := by
  induction items using List.twoStepInduction with
  | nil => exact fun _ _ hb => hb
  | singleton item => exact h item List.mem_cons_self
  | cons_cons item next others _ ih =>
    apply ((h item List.mem_cons_self).append_text hseparator).append_closed
    exact ih next fun other hother => h other (List.mem_cons_of_mem item hother)

theorem follows_text {s : String} (h : setsOff s = true) {a : Sql} (ha : Closed a) :
    Follows (text s ++ a) := by
  have hdivides : Divides (text s ++ a) := h
  exact ((guarded_text (head?_ne_of_setsOff h)).append_closed ha).follows hdivides

/-- At no place of a closed piece a quote stands behind a fragment that begins with one. -/
theorem Closed.head?_written {a before after : Sql} {s : String} (h : Closed a)
    (hplace : a = before ++ .text s :: after) (hquote : s.toList.head? = some '\'')
    (style : PlaceholderStyle) (bound : Nat) :
    (after.written style bound).toList.head? ≠ some '\'' := by
  subst hplace
  have hguarded : Guarded (before ++ .text s :: after ++ param .null) := h _ trivial trivial
  have hdivides : Divides (after ++ param .null) := by
    clear h
    induction before with
    | nil => exact hguarded.1 hquote
    | cons f rest ih =>
      cases f with
      | text _ => exact ih hguarded.2
      | param _ => exact ih hguarded
  cases after with
  | nil => exact nofun
  | cons f rest =>
    cases f with
    | text first =>
      rw [written]
      exact head?_ne_of_setsOff (setsOff_append hdivides _)
    | param v =>
      rw [written]
      refine head?_ne_of_setsOff (setsOff_append ?_ _)
      cases style with
      | positional =>
        change setsOff "?" = true
        decide
      | numbered => exact setsOff_append (by decide) _

end Sql

end RecordMapper
