import RecordMapper.Proofs.Numeral
import RecordMapper.Text.Quoted

/-!
# Scanning SQL text for placeholders

A text is scanned from left to right. Inside quotes of any kind everything is text; a doubled quote
ends one quoted span and begins the next. Outside, `?` is a placeholder, and so is `$` with all
digits behind it. A text is balanced if its quotes are closed at its end and no placeholder mark
stands outside them; such texts can be cut off the front of a scan.
-/

set_option autoImplicit false

namespace RecordMapper.SqlText

inductive Piece
  | char (c : Char)
  | placeholder (mark : List Char)
deriving DecidableEq

def isQuote (c : Char) : Bool := c = '\'' || c = '"' || c = Char.ofNat 96

/-- The pieces of a text, behind the given opening quote if there is one. -/
def pieces : Option Char → List Char → List Piece
  | _, [] => []
  | some quote, c :: rest => .char c :: pieces (if c = quote then none else some quote) rest
  | none, c :: rest =>
    if isQuote c then .char c :: pieces (some c) rest
    else if c = '?' then .placeholder [c] :: pieces none rest
    else if c = '$' ∧ rest.takeWhile Numeral.isDigit ≠ [] then
      .placeholder (c :: rest.takeWhile Numeral.isDigit) ::
        pieces none (rest.dropWhile Numeral.isDigit)
    else .char c :: pieces none rest
termination_by _ cs => cs.length
decreasing_by
  all_goals simp only [List.length_cons]
  all_goals first
    | omega
    | exact Nat.lt_succ_of_le (List.dropWhile_sublist _).length_le

def Piece.mark? : Piece → Option String
  | .char _ => none
  | .placeholder mark => some (String.ofList mark)

def placeholders (sql : String) : List String := (pieces none sql.toList).filterMap Piece.mark?

/-- The pieces with the literals in place of the placeholders. -/
def fill : List String → List Piece → List Char
  | _, [] => []
  | literals, .char c :: rest => c :: fill literals rest
  | literal :: literals, .placeholder _ :: rest => literal.toList ++ fill literals rest
  | [], .placeholder mark :: rest => mark ++ fill [] rest

/-- The text with the literals in place of its placeholders, and all else as it is. -/
def filled (literals : List String) (sql : String) : String :=
  String.ofList (fill literals (pieces none sql.toList))

/-- Behind the given opening quote if there is one. -/
def isBalanced : Option Char → List Char → Bool
  | quote, [] => quote.isNone
  | some quote, c :: rest => isBalanced (if c = quote then none else some quote) rest
  | none, c :: rest =>
    if isQuote c then isBalanced (some c) rest else c ≠ '?' && c ≠ '$' && isBalanced none rest

theorem isBalanced_nil (quote : Option Char) : isBalanced quote [] = quote.isNone := by
  cases quote <;> rfl

theorem isBalanced_inside (quote c : Char) (rest : List Char) :
    isBalanced (some quote) (c :: rest) = isBalanced (if c = quote then none else some quote) rest :=
  rfl

theorem isBalanced_outside (c : Char) (rest : List Char) :
    isBalanced none (c :: rest) =
      if isQuote c then isBalanced (some c) rest else c ≠ '?' && c ≠ '$' && isBalanced none rest :=
  rfl

theorem isBalanced_append {quote : Option Char} {a b : List Char}
    (ha : isBalanced quote a = true) (hb : isBalanced none b = true) :
    isBalanced quote (a ++ b) = true := by
  induction a generalizing quote with
  | nil =>
    obtain rfl : quote = none := by simpa [isBalanced_nil] using ha
    exact hb
  | cons c rest ih =>
    cases quote with
    | some quote => exact ih ha
    | none =>
      rw [isBalanced_outside] at ha
      rw [List.cons_append, isBalanced_outside]
      split
      · next hc =>
        rw [if_pos hc] at ha
        exact ih ha
      · next hc =>
        rw [if_neg hc, Bool.and_eq_true] at ha
        rw [ha.1, ih ha.2]
        rfl

/-- A balanced text is text, whatever comes behind it. -/
theorem pieces_append {quote : Option Char} {a : List Char} (ha : isBalanced quote a = true)
    (rest : List Char) : pieces quote (a ++ rest) = a.map .char ++ pieces none rest := by
  induction a generalizing quote with
  | nil =>
    obtain rfl : quote = none := by simpa [isBalanced_nil] using ha
    rfl
  | cons c cs ih =>
    cases quote with
    | some quote =>
      rw [List.cons_append, pieces, ih ha]
      rfl
    | none =>
      rw [isBalanced_outside] at ha
      rw [List.cons_append, pieces]
      split
      · next hc =>
        rw [if_pos hc] at ha
        rw [ih ha]
        rfl
      · next hc =>
        rw [if_neg hc] at ha
        simp only [Bool.and_eq_true, decide_eq_true_eq] at ha
        obtain ⟨⟨hpositional, hnumbered⟩, hrest⟩ := ha
        rw [if_neg hpositional, if_neg (fun h => hnumbered h.1), ih hrest]
        rfl

theorem isBalanced_quote {quote : Char} {rest : List Char} (hquote : isQuote quote = true) :
    isBalanced none (quote :: rest) = isBalanced (some quote) rest := by
  rw [isBalanced_outside, if_pos hquote]

/-- A quote that is doubled ends the quoted span and begins it again. -/
theorem isBalanced_doubled {quote : Char} (hquote : isQuote quote = true) (cs rest : List Char) :
    isBalanced (some quote) (Text.doubled quote cs ++ rest) = isBalanced (some quote) rest := by
  induction cs with
  | nil => rfl
  | cons c cs ih =>
    rw [Text.doubled]
    split
    · next hc =>
      rw [hc, List.cons_append, List.cons_append, isBalanced_inside, if_pos rfl,
        isBalanced_quote hquote, ih]
    · next hc => rw [List.cons_append, isBalanced_inside, if_neg hc, ih]

theorem isBalanced_quoted {quote : Char} (hquote : isQuote quote = true) (s : String) :
    isBalanced none (Text.quoted quote s).toList = true := by
  rw [Text.quoted, String.toList_ofList, List.cons_append, isBalanced_quote hquote,
    isBalanced_doubled hquote, isBalanced_inside, if_pos rfl]
  rfl

def IsPlain (cs : List Char) : Prop := ∀ c ∈ cs, isQuote c = false ∧ c ≠ '?' ∧ c ≠ '$'

theorem IsPlain.isBalanced {cs : List Char} (h : IsPlain cs) : isBalanced none cs = true := by
  induction cs with
  | nil => rfl
  | cons c cs ih =>
    obtain ⟨hquote, hpositional, hnumbered⟩ := h c List.mem_cons_self
    have hrest := ih fun x hx => h x (List.mem_cons_of_mem c hx)
    simp [isBalanced_outside, hquote, hpositional, hnumbered, hrest]

theorem isPlain_of_isDigit {cs : List Char} (h : ∀ c ∈ cs, Numeral.isDigit c = true) :
    IsPlain cs := by
  intro c hc
  have hdigit := h c hc
  refine ⟨?_, ?_, ?_⟩
  · rw [Bool.eq_false_iff]
    intro hquote
    simp only [isQuote, Bool.or_eq_true, decide_eq_true_eq] at hquote
    rcases hquote with (rfl | rfl) | rfl <;> exact absurd hdigit (by decide)
  · rintro rfl
    exact absurd hdigit (by decide)
  · rintro rfl
    exact absurd hdigit (by decide)

theorem ofNat_ne_nil (n : Nat) : (Numeral.ofNat n).toList ≠ [] := by
  rw [Numeral.ofNat, String.toList_ofList, Numeral.chars, Numeral.decimal]
  split <;> simp

def leads : List Char → Bool
  | [] => false
  | c :: _ => !Numeral.isDigit c

def Balanced (s : String) : Prop := isBalanced none s.toList = true

/-- A balanced text that can stand behind a number. -/
structure Word (s : String) : Prop where
  balanced : Balanced s
  leads : leads s.toList = true

theorem Balanced.append {a b : String} (ha : Balanced a) (hb : Balanced b) : Balanced (a ++ b) := by
  rw [Balanced, String.toList_append]
  exact isBalanced_append ha hb

theorem Balanced.ite {p : Prop} [Decidable p] {a b : String} (ha : Balanced a) (hb : Balanced b) :
    Balanced (if p then a else b) := by
  split
  · exact ha
  · exact hb

theorem Word.append {a b : String} (ha : Word a) (hb : Balanced b) : Word (a ++ b) := by
  refine ⟨ha.balanced.append hb, ?_⟩
  have hleads := ha.leads
  rw [String.toList_append]
  cases h : a.toList with
  | nil =>
    rw [h] at hleads
    exact absurd hleads (by decide)
  | cons c rest =>
    rw [h] at hleads
    exact hleads

theorem Balanced.literal {cs : List Char} (h : isBalanced none cs = true) :
    Balanced (String.ofList cs) := by
  rw [Balanced, String.toList_ofList]
  exact h

theorem Word.literal {cs : List Char} (h : (isBalanced none cs && SqlText.leads cs) = true) :
    Word (String.ofList cs) := by
  obtain ⟨hbalanced, hleads⟩ := Bool.and_eq_true_iff.mp h
  refine ⟨Balanced.literal hbalanced, ?_⟩
  rw [String.toList_ofList]
  exact hleads

theorem Balanced.number (n : Nat) : Balanced (Numeral.ofNat n) :=
  (isPlain_of_isDigit fun _ h => Numeral.isDigit_of_mem_ofNat h).isBalanced

theorem Word.quoted {quote : Char} (hquote : isQuote quote = true) (s : String) :
    Word (Text.quoted quote s) := by
  refine ⟨isBalanced_quoted hquote s, ?_⟩
  rw [Text.quoted, String.toList_ofList, List.cons_append, SqlText.leads, Bool.not_eq_true']
  simp only [isQuote, Bool.or_eq_true, decide_eq_true_eq] at hquote
  rcases hquote with (rfl | rfl) | rfl <;> rfl

end RecordMapper.SqlText
