import Mathlib.Data.List.Basic
import Mathlib.Data.List.TakeWhile
import RecordMapper.Text.Blank

/-!
# Texts between blanks

Blanks are removed from the ends of a text and nowhere else: what begins and ends with other
characters is kept as it is, whatever blanks it holds, and is found again behind and before any
number of blanks.
-/

set_option autoImplicit false

namespace RecordMapper.Text

/-- A text with no blank at its ends, and some character. -/
structure IsTrimmed (cs : List Char) : Prop where
  ne_nil : cs ≠ []
  head : ∀ c ∈ cs.head?, isBlank c = false
  last : ∀ c ∈ cs.getLast?, isBlank c = false

variable {cs : List Char}

theorem IsTrimmed.of_forall (hne : cs ≠ []) (h : ∀ c ∈ cs, isBlank c = false) : IsTrimmed cs :=
  ⟨hne, fun c hc => h c (List.mem_of_head? hc), fun c hc => h c (List.mem_of_getLast? hc)⟩

/-- Only the two ends matter. -/
theorem IsTrimmed.append {first last : List Char} (hfirst : IsTrimmed first)
    (middle : List Char) (hlast : IsTrimmed last) : IsTrimmed (first ++ (middle ++ last)) := by
  have hne : middle ++ last ≠ [] := fun h => hlast.ne_nil (List.append_eq_nil_iff.mp h).2
  refine ⟨fun h => hne (List.append_eq_nil_iff.mp h).2, fun c hc => ?_, fun c hc => ?_⟩
  · rw [List.head?_append_of_ne_nil first hfirst.ne_nil] at hc
    exact hfirst.head c hc
  · rw [List.getLast?_append_of_ne_nil first hne,
      List.getLast?_append_of_ne_nil middle hlast.ne_nil] at hc
    exact hlast.last c hc

theorem skipBlanks_append {lead : List Char} (hlead : ∀ c ∈ lead, isBlank c = true)
    (hcs : ∀ c ∈ cs.head?, isBlank c = false) : skipBlanks (lead ++ cs) = cs := by
  rw [skipBlanks, List.dropWhile_append_of_pos hlead]
  cases cs with
  | nil => rfl
  | cons c rest => rw [List.dropWhile_cons_of_neg (by simp [hcs c rfl])]

theorem skipBlanks_of_head (hcs : ∀ c ∈ cs.head?, isBlank c = false) : skipBlanks cs = cs :=
  skipBlanks_append (List.forall_mem_nil _) hcs

theorem trimBlanks_enclosed {lead trail : List Char} (h : IsTrimmed cs)
    (hlead : ∀ c ∈ lead, isBlank c = true)
    (htrail : ∀ c ∈ trail, isBlank c = true) : trimBlanks (lead ++ (cs ++ trail)) = cs := by
  have hhead : ∀ c ∈ (cs ++ trail).head?, isBlank c = false := by
    rw [List.head?_append_of_ne_nil cs h.ne_nil]
    exact h.head
  have hlast : ∀ c ∈ cs.reverse.head?, isBlank c = false := by
    rw [List.head?_reverse]
    exact h.last
  rw [trimBlanks, skipBlanks_append hlead hhead, List.reverse_append,
    skipBlanks_append (fun c hc => htrail c (List.mem_reverse.mp hc)) hlast, List.reverse_reverse]

theorem trimBlanks_of_isTrimmed (h : IsTrimmed cs) : trimBlanks cs = cs := by
  have henclosed := trimBlanks_enclosed h (List.forall_mem_nil _) (List.forall_mem_nil _)
  rwa [List.append_nil, List.nil_append] at henclosed

/-- What follows keeps its beginning, if it keeps anything. -/
theorem exists_trimBlanks_append {lead : List Char} (h : IsTrimmed cs)
    (hlead : ∀ c ∈ lead, isBlank c = true) (rest : List Char) :
    ∃ kept, kept <+: rest ∧ trimBlanks (lead ++ (cs ++ rest)) = cs ++ kept := by
  have hhead : ∀ c ∈ (cs ++ rest).head?, isBlank c = false := by
    rw [List.head?_append_of_ne_nil cs h.ne_nil]
    exact h.head
  have hlast : ∀ c ∈ cs.reverse.head?, isBlank c = false := by
    rw [List.head?_reverse]
    exact h.last
  have hprefix : (skipBlanks rest.reverse).reverse <+: rest := by
    rw [← List.reverse_suffix, List.reverse_reverse]
    exact List.dropWhile_suffix _
  refine ⟨(skipBlanks rest.reverse).reverse, hprefix, ?_⟩
  rw [trimBlanks, skipBlanks_append hlead hhead, List.reverse_append]
  by_cases hnil : skipBlanks rest.reverse = []
  · have hblank : ∀ c ∈ rest.reverse, isBlank c = true := List.dropWhile_eq_nil_iff.mp hnil
    rw [skipBlanks_append hblank hlast, hnil, List.reverse_reverse, List.reverse_nil,
      List.append_nil]
  · rw [skipBlanks, List.dropWhile_append, if_neg (by simpa [skipBlanks] using hnil), List.reverse_append,
      List.reverse_reverse]
    rfl

end RecordMapper.Text
