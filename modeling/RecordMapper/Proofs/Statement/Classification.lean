import Mathlib.Data.List.Infix
import RecordMapper.Proofs.Statement.Scan
import RecordMapper.Statement.Basic
import RecordMapper.Statement.Kind

/-!
# Clauses in the text of a statement

The kind of a statement is guessed from its first word and from clauses that occur anywhere in its
text, in names as well. A clause that no name has in it occurs in a statement only where a fragment
of the statement has it: it has no mark in it, so it does not reach into a name or out of it, and
placeholders have no letters.
-/

set_option autoImplicit false

namespace RecordMapper

namespace Text
variable {clause a b : List Char}

def capitals (s : String) : List Char := s.toList.map Char.toUpper

@[simp] theorem capitals_append (s t : String) : capitals (s ++ t) = capitals s ++ capitals t := by
  rw [capitals, String.toList_append, List.map_append]
  rfl

theorem occursIn_iff {needle cs : List Char} : occursIn needle cs = true ↔ needle <:+: cs := by
  induction cs with
  | nil => rw [occursIn, List.isEmpty_iff, List.infix_nil]
  | cons c rest ih => rw [occursIn, Bool.or_eq_true, List.isPrefixOf_iff_prefix, ih,
      List.infix_cons_iff]

/-- A clause without the character does not reach across it. -/
theorem infix_append_cons_iff {c : Char} (hc : c ∉ clause) :
    clause <:+: a ++ c :: b ↔ clause <:+: a ∨ clause <:+: b := by
  constructor
  · intro h
    induction a with
    | nil =>
      rcases List.infix_cons_iff.mp h with hfront | hin
      · cases clause with
        | nil => exact .inl List.nil_infix
        | cons first others =>
          obtain rfl := (List.cons_prefix_cons.mp hfront).1
          exact absurd List.mem_cons_self hc
      · exact .inr hin
    | cons x rest ih =>
      rcases List.infix_cons_iff.mp h with hfront | hin
      · refine .inl (List.IsPrefix.isInfix ?_)
        rcases List.prefix_or_prefix_of_prefix hfront (List.prefix_append (x :: rest) (c :: b)) with
          hshort | ⟨tail, rfl⟩
        · exact hshort
        · -- what the clause has beyond `a` begins with `c`, so there is nothing
          have htail := (List.prefix_append_right_inj (x :: rest)).mp hfront
          cases tail with
          | nil => rw [List.append_nil]
          | cons first others =>
            obtain rfl := (List.cons_prefix_cons.mp htail).1
            exact absurd (List.mem_append_right _ List.mem_cons_self) hc
      · exact (ih hin).imp_left fun hrest => hrest.trans (List.suffix_cons x rest).isInfix
  · rintro (ha | hb)
    · exact ha.trans (List.prefix_append a (c :: b)).isInfix
    · exact hb.trans ((List.suffix_cons c b).trans (List.suffix_append a (c :: b))).isInfix

theorem infix_cons_iff_of_not_mem {c : Char} (hc : c ∉ clause) :
    clause <:+: c :: b ↔ clause <:+: b := by
  refine (infix_append_cons_iff (a := []) hc).trans (or_iff_right_of_imp fun hnil => ?_)
  rw [List.infix_nil.mp hnil]
  exact List.nil_infix

/-- No occurrence of the clause begins in the text, whatever is written behind it. -/
def Avoids (clause text : List Char) : Prop :=
  ∀ behind, clause <:+: text ++ behind → clause <:+: behind

theorem Avoids.append (ha : Avoids clause a) (hb : Avoids clause b) : Avoids clause (a ++ b) := by
  intro behind h
  rw [List.append_assoc] at h
  exact hb behind (ha _ h)

theorem avoids_nil : Avoids clause [] := fun _ h => h

theorem Avoids.not_occurs (h : Avoids clause a) (hclause : clause ≠ []) : ¬ clause <:+: a := by
  intro hin
  rw [← List.append_nil a] at hin
  exact hclause (List.infix_nil.mp (h [] hin))

/-- From no place of the text on do clause and text agree as far as both go. -/
theorem avoids_of_suffixes
    (h : ∀ suffix ∈ a.tails, suffix ≠ [] → ¬ (clause <+: suffix ∨ suffix <+: clause)) :
    Avoids clause a := by
  induction a with
  | nil => exact avoids_nil
  | cons c rest ih =>
    intro behind hin
    rcases List.infix_cons_iff.mp hin with hfront | hin
    · refine absurd ?_ (h (c :: rest) (List.mem_tails _ _ |>.mpr List.suffix_rfl) nofun)
      exact List.prefix_or_prefix_of_prefix hfront (List.prefix_append (c :: rest) behind)
    · refine ih (fun suffix hsuffix => h suffix ?_) behind hin
      rw [List.mem_tails] at hsuffix ⊢
      exact hsuffix.trans (List.suffix_cons c rest)

/-- What can be looked for: it begins with a letter and has no mark in it. -/
structure IsClause (clause : List Char) : Prop where
  letter : ∃ first others, clause = first :: others ∧ first.isAlpha = true
  unmarked : clause.any SqlText.isQuote = false

theorem IsClause.ne_nil (h : IsClause clause) : clause ≠ [] := by
  obtain ⟨first, others, rfl, -⟩ := h.letter
  exact List.cons_ne_nil first others

theorem IsClause.mark_not_mem (h : IsClause clause) {mark : Char}
    (hmark : SqlText.isQuote mark = true) : mark.toUpper ∉ clause := by
  intro hmem
  have hplain := List.any_eq_false.mp h.unmarked _ hmem
  simp only [SqlText.isQuote, Bool.or_eq_true, decide_eq_true_eq] at hmark
  rcases hmark with (rfl | rfl) | rfl <;> exact hplain rfl

theorem prefix_of_prefix_doubled {mark : Char} (hmark : mark.toUpper ∉ clause) {cs : List Char}
    (h : clause <+: (doubled mark cs).map Char.toUpper) : clause <+: cs.map Char.toUpper := by
  induction cs generalizing clause with
  | nil => exact h
  | cons c rest ih =>
    cases clause with
    | nil => exact List.nil_prefix
    | cons first others =>
      rw [doubled] at h
      split at h
      · next hc =>
        obtain ⟨rfl, -⟩ := List.cons_prefix_cons.mp h
        exact absurd (hc ▸ List.mem_cons_self) hmark
      · obtain ⟨rfl, hothers⟩ := List.cons_prefix_cons.mp h
        refine List.cons_prefix_cons.mpr ⟨rfl, ih ?_ hothers⟩
        exact fun hmem => hmark (List.mem_cons_of_mem _ hmem)

theorem infix_of_infix_doubled {mark : Char} (hmark : mark.toUpper ∉ clause) {cs : List Char}
    (h : clause <:+: (doubled mark cs).map Char.toUpper) : clause <:+: cs.map Char.toUpper := by
  induction cs with
  | nil => exact h
  | cons c rest ih =>
    have hrest (hin : clause <:+: (doubled mark rest).map Char.toUpper) :
        clause <:+: (c :: rest).map Char.toUpper :=
      (ih hin).trans (List.suffix_cons _ _).isInfix
    by_cases hc : c = mark
    · subst hc
      rw [doubled, if_pos rfl, List.map_cons, List.map_cons, infix_cons_iff_of_not_mem hmark,
        infix_cons_iff_of_not_mem hmark] at h
      exact hrest h
    · have hfront (hbegun : clause <+: (doubled mark (c :: rest)).map Char.toUpper) :
          clause <+: (c :: rest).map Char.toUpper := prefix_of_prefix_doubled hmark hbegun
      rw [doubled, if_neg hc, List.map_cons] at h hfront
      rcases List.infix_cons_iff.mp h with hbegun | hin
      · exact (hfront hbegun).isInfix
      · exact hrest hin

theorem avoids_quoted (hclause : IsClause clause) {mark : Char}
    (hmark : SqlText.isQuote mark = true) {name : String} (h : ¬ clause <:+: capitals name) :
    Avoids clause (capitals (quoted mark name)) := by
  have hmem := hclause.mark_not_mem hmark
  intro behind hin
  rw [capitals, quoted, String.toList_ofList, List.map_append, List.map_cons, List.cons_append,
    List.cons_append, infix_cons_iff_of_not_mem hmem, List.append_assoc] at hin
  rcases (infix_append_cons_iff hmem).mp hin with hinside | hbehind
  · exact absurd (infix_of_infix_doubled hmem hinside) h
  · exact hbehind

theorem avoids_placeholder (hclause : IsClause clause) (style : PlaceholderStyle) (n : Nat) :
    Avoids clause (capitals (style.placeholder n)) := by
  have hletters : ∀ c ∈ capitals (style.placeholder n), c.isAlpha = false := by
    cases style with
    | positional =>
      have hsign : capitals "?" = ['?'] := by decide
      intro c hc
      rw [PlaceholderStyle.placeholder, hsign] at hc
      obtain rfl := List.mem_singleton.mp hc
      rfl
    | numbered =>
      have hsign : capitals "$" = ['$'] := by decide
      have hdigits : ∀ d < 10, (Nat.digitChar d).toUpper.isAlpha = false := by decide
      intro c hc
      rw [PlaceholderStyle.placeholder, capitals_append, hsign] at hc
      rcases List.mem_append.mp hc with hc | hc
      · obtain rfl := List.mem_singleton.mp hc
        rfl
      · rw [capitals, Numeral.ofNat, String.toList_ofList, Numeral.chars, List.map_map] at hc
        obtain ⟨d, hd, rfl⟩ := List.mem_map.mp hc
        exact hdigits d (Numeral.lt_of_mem_decimal hd)
  obtain ⟨first, others, rfl, hfirst⟩ := hclause.letter
  refine avoids_of_suffixes fun suffix hsuffix hne => ?_
  cases suffix with
  | nil => exact absurd rfl hne
  | cons c rest =>
    rw [List.cons_prefix_cons, List.cons_prefix_cons]
    have hc := hletters c ((List.mem_tails _ _).mp hsuffix |>.mem List.mem_cons_self)
    rintro (⟨rfl, -⟩ | ⟨rfl, -⟩) <;> rw [hfirst] at hc <;> cases hc

end Text

namespace Sql

open Text

variable {clause : List Char}

/-- No occurrence of the clause begins in a fragment that is text. -/
def Avoids (clause : List Char) (body : Sql) : Prop :=
  ∀ s, .text s ∈ body → Text.Avoids clause (capitals s)

theorem avoids_text {s : String} (h : Text.Avoids clause (capitals s)) :
    (Sql.text s).Avoids clause := by
  intro s' hs'
  obtain ⟨rfl⟩ := Fragment.text.inj (List.mem_singleton.mp hs')
  exact h

theorem avoids_param (v : Value) : (Sql.param v).Avoids clause :=
  fun _ h => nomatch List.mem_singleton.mp h

theorem Avoids.append {a b : Sql} (ha : a.Avoids clause) (hb : b.Avoids clause) :
    Avoids clause (a ++ b) :=
  fun s hs => (List.mem_append.mp hs).elim (ha s) (hb s)

theorem avoids_separated {separator : String} (hseparator : Text.Avoids clause (capitals separator))
    {items : List Sql} (h : ∀ item ∈ items, item.Avoids clause) :
    (separated separator items).Avoids clause := by
  induction items using List.twoStepInduction with
  | nil => exact fun _ hs => nomatch hs
  | singleton item => exact h item List.mem_cons_self
  | cons_cons item next others _ ih =>
    have hrest := ih next fun x hx => h x (List.mem_cons_of_mem item hx)
    exact ((h item List.mem_cons_self).append (avoids_text hseparator)).append hrest

theorem Avoids.written (hclause : IsClause clause) {body : Sql} (h : body.Avoids clause)
    (style : PlaceholderStyle) (bound : Nat) :
    Text.Avoids clause (capitals (body.written style bound)) := by
  induction body generalizing bound with
  | nil => exact avoids_nil
  | cons f rest ih =>
    have hrest (bound : Nat) := ih (fun s hs => h s (List.mem_cons_of_mem f hs)) bound
    cases f with
    | text s =>
      rw [Sql.written, capitals_append]
      exact (h s List.mem_cons_self).append (hrest bound)
    | param v =>
      rw [Sql.written, capitals_append]
      exact (avoids_placeholder hclause style _).append (hrest _)

theorem infix_written {body : Sql} {s : String} (hs : .text s ∈ body)
    (h : clause <:+: capitals s) (style : PlaceholderStyle) (bound : Nat) :
    clause <:+: capitals (body.written style bound) := by
  induction body generalizing bound with
  | nil => nomatch hs
  | cons f rest ih =>
    rcases List.mem_cons.mp hs with rfl | hrest
    · rw [written, capitals_append]
      exact h.trans (List.prefix_append _ _).isInfix
    · cases f with
      | text s' =>
        rw [written, capitals_append]
        exact (ih hrest bound).trans (List.suffix_append _ _).isInfix
      | param v =>
        rw [written, capitals_append]
        exact (ih hrest _).trans (List.suffix_append _ _).isInfix

/-- However placeholders are written, the text begins like this. -/
def Leads (lead : String) (body : Sql) : Prop :=
  ∀ style bound, lead.toList <+: (body.written style bound).toList

theorem Leads.append {lead : String} {a : Sql} (h : a.Leads lead) (b : Sql) :
    Leads lead (a ++ b) := by
  intro style bound
  rw [written_append, String.toList_append]
  exact (h style bound).trans (List.prefix_append _ _)

theorem leads_text {lead s : String} (h : lead.toList <+: s.toList) : (Sql.text s).Leads lead := by
  intro style bound
  rw [Sql.text, written, written, String.append_empty]
  exact h

end Sql

namespace StatementKind

open Text

variable {sql : String}

/-- What statements begin with whose kind shows in their first word alone. -/
def leads : List (String × StatementKind) :=
  [("CREATE ", create), ("DROP ", create), ("MERGE ", merge), ("UPDATE ", update),
    ("DELETE ", delete), ("SELECT ", select)]

theorem classify_of_mem_leads {lead : String} {kind : StatementKind} (hlead : (lead, kind) ∈ leads)
    (h : lead.toList <+: sql.toList) : classify sql = kind := by
  obtain ⟨rest, h⟩ := h
  rw [classify, ← h]
  simp only [leads, List.mem_cons, List.not_mem_nil, or_false, Prod.mk.injEq] at hlead
  rcases hlead with ⟨rfl, rfl⟩ | ⟨rfl, rfl⟩ | ⟨rfl, rfl⟩ | ⟨rfl, rfl⟩ | ⟨rfl, rfl⟩ | ⟨rfl, rfl⟩ <;>
    rfl

theorem classify_of_insert_or_replace (h : "INSERT OR REPLACE ".toList <+: sql.toList) :
    classify sql = merge := by
  obtain ⟨rest, h⟩ := h
  rw [classify, ← h]
  rfl

/-- A text has clauses by which an `INSERT` replaces rows. -/
def Replaces (capitals : List Char) : Prop :=
  "ON DUPLICATE KEY UPDATE".toList <:+: capitals ∨
    ("ON CONFLICT".toList <:+: capitals ∧ "DO UPDATE".toList <:+: capitals)
deriving Decidable

theorem classify_of_insert (h : "INSERT INTO ".toList <+: sql.toList) :
    classify sql = if Replaces (capitals sql) then merge else insert := by
  have hreplaces : replaces (capitals sql) = true ↔ Replaces (capitals sql) := by
    obtain ⟨rest, h⟩ := h
    have hfront : "INSERT OR REPLACE".toList.isPrefixOf (capitals sql) = false := by
      rw [capitals, ← h]
      rfl
    rw [replaces, hfront]
    simp only [Bool.false_or, Bool.or_eq_true, Bool.and_eq_true, occursIn_iff, Replaces]
  have hclassify : classify sql = if replaces (capitals sql) then merge else insert := by
    obtain ⟨rest, h⟩ := h
    rw [classify, capitals, ← h]
    rfl
  simp only [hclassify, hreplaces]

end StatementKind

end RecordMapper
