import RecordMapper.Proofs.Statement.Scanner

/-!
# The lexemes of a statement

Where the structure of a clause is read, its text is cut as SQL cuts it. Words are told from
numbers, a quoted text reaches to its own closing quote, two signs may make one comparison, and
blanks only separate. A quoted text that is never closed is seen. Comments are not told apart.
-/

set_option autoImplicit false

namespace RecordMapper

inductive Lexeme
  | word (s : String)
  | number (s : String)
  | quoted (quote : Char) (s : String)
  /-- A quote that is opened and never closed. -/
  | unclosed (quote : Char)
  | param (v : Value)
  | sign (s : String)
deriving DecidableEq

namespace Lexeme

open Scanner (Position finished read_of_next read_outside read_of_ended)
open Sql (chars)

def isWordStart (c : Char) : Bool := c.isAlpha || c = '_'

def isWordPart (c : Char) : Bool := isWordStart c || Numeral.isDigit c

def isExponentMark (c : Char) : Bool := c = 'e' || c = 'E'

/-- Whether a number that has been seen so far, in reverse, goes on with the character. -/
def continuesNumber (seen : List Char) (c : Char) : Bool :=
  isWordPart c || c = '.' || ((c = '+' || c = '-') && (seen.head?.any isExponentMark))

/-- Runs of several characters. A sign may go on with a second one. -/
inductive Run
  | word
  | number
  | sign

/-- `<=`, `<>` and `>=` are one sign, and a number may begin with its point. -/
def joined? : List Char → Char → Option Run
  | ['<'], c => if c = '=' || c = '>' then some .sign else none
  | ['>'], c => if c = '=' then some .sign else none
  | ['.'], c => if Numeral.isDigit c then some .number else none
  | _, _ => none

/-- The characters that end whatever stands before them. -/
def isBreak : Atom → Bool
  | .char c => c = ' ' || c = '(' || c = ')' || c = '[' || c = ']' || c = ','
  | .param _ => false

/-- A break is part of no word and of no number, and it is no quote. -/
theorem isWordPart_of_isBreak {c : Char} (h : isBreak (.char c) = true) :
    isWordPart c = false ∧ c ≠ '.' ∧ c ≠ '+' ∧ c ≠ '-' ∧ SqlText.isQuote c = false := by
  simp only [isBreak, Bool.or_eq_true, decide_eq_true_eq] at h
  rcases h with ((((rfl | rfl) | rfl) | rfl) | rfl) | rfl <;> decide

def scanner : Scanner Run Lexeme where
  begun? c :=
    if isWordStart c then some .word
    else if Numeral.isDigit c then some .number
    else if c = '<' || c = '>' || c = '.' then some .sign
    else none
  continued?
    | .word, _, c => if isWordPart c then some .word else none
    | .number, seen, c => if continuesNumber seen c then some .number else none
    | .sign, seen, c => joined? seen c
  single? c :=
    if isWordPart c || c = '<' || c = '>' || c = '.' || c.isWhitespace then none
    else some (.sign (String.ofList [c]))
  run
    | .word, s => .word s
    | .number, s => .number s
    | .sign, s => .sign s
  quoted := .quoted
  unclosed := .unclosed
  param := .param
  breaks := isBreak
  isQuote_of_breaks _ h := (isWordPart_of_isBreak h).2.2.2.2

abbrev Spells (a : List Atom) (ls : List Lexeme) : Prop := scanner.Spells a ls

abbrev Delimited (a : List Atom) (ls : List Lexeme) : Prop := scanner.Delimited a ls

abbrev Follows (a : List Atom) (ls : List Lexeme) : Prop := scanner.Follows a ls

/-- A property of lists of lexemes that is kept when they are put together. -/
structure IsAdditive (K : List Lexeme → Prop) : Prop where
  nil : K []
  append : ∀ {a b : List Lexeme}, K a → K b → K (a ++ b)

theorem IsAdditive.of_forall {K : List Lexeme → Prop} (hK : IsAdditive K) {a : List Lexeme}
    (h : ∀ x ∈ a, K [x]) : K a := by
  induction a with
  | nil => exact hK.nil
  | cons x a ih =>
    exact hK.append (h x List.mem_cons_self) (ih fun y hy => h y (List.mem_cons_of_mem x hy))

theorem IsAdditive.flatMap {α : Type} {K : List Lexeme → Prop} (hK : IsAdditive K)
    {f : α → List Lexeme} {xs : List α} (h : ∀ x ∈ xs, K (f x)) : K (xs.flatMap f) := by
  induction xs with
  | nil => exact hK.nil
  | cons x xs ih =>
    rw [List.flatMap_cons]
    exact hK.append (h x List.mem_cons_self) (ih fun y hy => h y (List.mem_cons_of_mem x hy))

theorem IsAdditive.intercalate {K : List Lexeme → Prop} (hK : IsAdditive K) {x : Lexeme} (hx : K [x])
    {items : List (List Lexeme)} (h : ∀ item ∈ items, K item) : K ([x].intercalate items) := by
  induction items using List.twoStepInduction with
  | nil => exact hK.nil
  | singleton item =>
    rw [List.intercalate_singleton]
    exact h item List.mem_cons_self
  | cons_cons item next others _ ih =>
    have hitem := h item List.mem_cons_self
    have hrest := ih next fun y hy => h y (List.mem_cons_of_mem item hy)
    rw [List.intercalate_cons_cons]
    exact hK.append (hK.append hitem hx) hrest

/-- A word as it stands outside quotes: letters, digits and `_`, a digit not first. -/
def isRegular : List Char → Bool
  | [] => false
  | first :: rest => isWordStart first && rest.all isWordPart

theorem next?_word {c : Char} (h : isWordPart c = true) (seen : List Char) :
    scanner.next? (.run .word seen) (.char c) = some (.run .word (c :: seen)) := by
  change (if isWordPart c then some Run.word else none).map _ = _
  rw [if_pos h, Option.map_some]

theorem next?_number {c : Char} {seen : List Char} (h : continuesNumber seen c = true) :
    scanner.next? (.run .number seen) (.char c) = some (.run .number (c :: seen)) := by
  change (if continuesNumber seen c then some Run.number else none).map _ = _
  rw [if_pos h, Option.map_some]

theorem read_wordParts {cs : List Char} (h : cs.all isWordPart = true) (seen : List Char)
    (rest : List Atom) : scanner.read (.run .word seen) (cs.map .char ++ rest) =
      scanner.read (.run .word (cs.reverse ++ seen)) rest := by
  induction cs generalizing seen with
  | nil => rfl
  | cons c cs ih =>
    rw [List.all_cons, Bool.and_eq_true] at h
    rw [List.map_cons, List.cons_append, read_of_next (next?_word h.1 seen), ih h.2,
      List.reverse_cons, List.append_assoc, List.singleton_append]

theorem isWordStart_eq_false_of_isQuote {c : Char} (h : SqlText.isQuote c = true) :
    isWordStart c = false := by
  simp only [SqlText.isQuote, Bool.or_eq_true, decide_eq_true_eq] at h
  rcases h with (rfl | rfl) | rfl <;> rfl

theorem read_regular {cs : List Char} (h : isRegular cs = true) (rest : List Atom) :
    scanner.read .outside (cs.map .char ++ rest) =
      scanner.read (.run .word cs.reverse) rest := by
  cases cs with
  | nil => cases h
  | cons first cs =>
    obtain ⟨hfirst, hparts⟩ := Bool.and_eq_true_iff.mp h
    have hquote : SqlText.isQuote first = false := by
      rw [Bool.eq_false_iff]
      intro hquote
      rw [isWordStart_eq_false_of_isQuote hquote] at hfirst
      cases hfirst
    have hsingle : scanner.single (.char first) = [] := by
      simp [Scanner.single, scanner, isWordPart, hfirst]
    have hbegun : scanner.begun (.char first) = .run .word [first] := by
      simp [Scanner.begun, scanner, hquote, hfirst]
    rw [List.map_cons, List.cons_append, read_outside, hsingle, hbegun, List.nil_append,
      read_wordParts hparts, List.reverse_cons]

theorem next?_word_of_isBreak {seen : List Char} {a : Atom} (h : isBreak a = true) :
    scanner.next? (.run .word seen) a = none := by
  cases a with
  | param v => rfl
  | char c =>
    change (if isWordPart c then some Run.word else none).map _ = none
    rw [(isWordPart_of_isBreak h).1, if_neg Bool.false_ne_true, Option.map_none]

theorem next?_number_of_isBreak {seen : List Char} {a : Atom} (h : isBreak a = true) :
    scanner.next? (.run .number seen) a = none := by
  cases a with
  | param v => rfl
  | char c =>
    obtain ⟨hpart, hpoint, hplus, hminus, -⟩ := isWordPart_of_isBreak h
    change (if continuesNumber seen c then some Run.number else none).map _ = none
    rw [if_neg (by simp [continuesNumber, hpart, hpoint, hplus, hminus]), Option.map_none]

theorem Spells.word {s : String} (h : isRegular s.toList = true) : Spells (chars s) [.word s] := by
  intro rest hrest
  rw [chars, read_regular h, read_of_ended fun a ha => next?_word_of_isBreak (hrest a ha), finished,
    List.reverse_reverse, String.ofList_toList]
  rfl

/-- How far a numeral has been seen. -/
inductive NumeralPart
  | start
  | whole
  /-- Behind a point without digits before it. -/
  | point
  | fraction
  /-- Behind the mark of an exponent. -/
  | mark
  /-- Behind the sign of an exponent. -/
  | sign
  | exponent
deriving DecidableEq

namespace NumeralPart

def next? : NumeralPart → Char → Option NumeralPart
  | start, c =>
    if Numeral.isDigit c then some whole else if c = '.' then some point else none
  | whole, c =>
    if Numeral.isDigit c then some whole
    else if c = '.' then some fraction
    else if isExponentMark c then some mark else none
  | point, c => if Numeral.isDigit c then some fraction else none
  | fraction, c =>
    if Numeral.isDigit c then some fraction else if isExponentMark c then some mark else none
  | mark, c =>
    if Numeral.isDigit c then some exponent else if c = '+' || c = '-' then some sign else none
  | sign, c | exponent, c => if Numeral.isDigit c then some exponent else none

def isComplete : NumeralPart → Bool
  | whole | fraction | exponent => true
  | start | point | mark | sign => false

def accepts : NumeralPart → List Char → Bool
  | part, [] => part.isComplete
  | part, c :: rest =>
    match part.next? c with
    | some next => accepts next rest
    | none => false

end NumeralPart

/-- Digits, perhaps with a point among them, perhaps with an exponent. -/
def IsNumeral (s : String) : Prop := NumeralPart.accepts .start s.toList = true

instance (s : String) : Decidable (IsNumeral s) := inferInstanceAs (Decidable (_ = true))

/-- Where the reader of lexemes stands when a numeral has been seen so far. -/
def NumeralPart.At : NumeralPart → List Char → Position Run → Prop
  | start, seen, p => seen = [] ∧ p = .outside
  | point, seen, p => seen = ['.'] ∧ p = .run .sign seen
  | mark, seen, p => seen.head?.any isExponentMark = true ∧ p = .run .number seen
  | _, seen, p => p = .run .number seen

/-- A digit stands for nothing but a digit. -/
theorem plain_of_isDigit {c : Char} (h : Numeral.isDigit c = true) :
    SqlText.isQuote c = false ∧ isWordStart c = false ∧ c ≠ '.' ∧ isExponentMark c = false := by
  have hrange : 48 ≤ c.toNat ∧ c.toNat ≤ 57 := by
    simpa [Numeral.isDigit, Char.le_def, UInt32.le_iff_toNat_le] using h
  have hne {x : Char} (hx : x.toNat < 48 ∨ 57 < x.toNat) : c ≠ x := by
    rintro rfl
    omega
  refine ⟨?_, ?_, hne (by decide), ?_⟩
  · simp [SqlText.isQuote, hne (x := '\'') (by decide), hne (x := '"') (by decide),
      hne (x := Char.ofNat 96) (by decide)]
  · have halpha : c.isAlpha = false := by
      unfold Char.isAlpha Char.isUpper Char.isLower
      simp [UInt32.le_iff_toNat_le]
      omega
    simp [isWordStart, halpha, hne (x := '_') (by decide)]
  · simp [isExponentMark, hne (x := 'e') (by decide), hne (x := 'E') (by decide)]

theorem next?_number_of_isDigit {c : Char} (h : Numeral.isDigit c = true) (seen : List Char) :
    scanner.next? (.run .number seen) (.char c) = some (.run .number (c :: seen)) :=
  next?_number (by simp [continuesNumber, isWordPart, h])

theorem next?_number_of_isExponentMark {c : Char} (h : isExponentMark c = true)
    (seen : List Char) :
    scanner.next? (.run .number seen) (.char c) = some (.run .number (c :: seen)) := by
  apply next?_number
  simp only [isExponentMark, Bool.or_eq_true, decide_eq_true_eq] at h
  rcases h with rfl | rfl <;> rfl

namespace NumeralPart.At
variable {seen : List Char} {p : Position Run} {c : Char}

theorem step_start (h : start.At seen p) {next : NumeralPart} (hnext : start.next? c = some next)
    (rest : List Atom) : ∃ p', next.At (c :: seen) p' ∧
      scanner.read p (.char c :: rest) = scanner.read p' rest := by
  obtain ⟨rfl, rfl⟩ := h
  rw [read_outside]
  rw [next?] at hnext
  split at hnext
  · next hdigit =>
    obtain ⟨hquote, hstart, -, -⟩ := plain_of_isDigit hdigit
    obtain rfl := Option.some.inj hnext
    refine ⟨.run .number [c], rfl, ?_⟩
    simp [Scanner.single, Scanner.begun, scanner, hquote, hstart, hdigit, isWordPart]
  · split at hnext
    · next hpoint =>
      subst hpoint
      obtain rfl := Option.some.inj hnext
      exact ⟨.run .sign ['.'], ⟨rfl, rfl⟩, rfl⟩
    · cases hnext

theorem eq_run_number {part : NumeralPart} (h : part.At seen p) (hstart : part ≠ start)
    (hpoint : part ≠ point) : p = .run .number seen := by
  cases part with
  | start => exact absurd rfl hstart
  | point => exact absurd rfl hpoint
  | mark => exact h.2
  | whole | fraction | sign | exponent => exact h

/-- Whatever part of a numeral has been begun, a digit goes on with it. -/
theorem continued_digit {part next : NumeralPart} (hstart : part ≠ start) (h : part.At seen p)
    (hdigit : Numeral.isDigit c = true) (hnext : part.next? c = some next) :
    next.At (c :: seen) (.run .number (c :: seen)) ∧
      scanner.next? p (.char c) = some (.run .number (c :: seen)) := by
  constructor
  · cases part with
    | start => exact absurd rfl hstart
    | whole | point | fraction | mark | sign | exponent =>
      rw [next?, if_pos hdigit] at hnext
      obtain rfl := Option.some.inj hnext
      rfl
  · by_cases hpoint : part = point
    · subst hpoint
      obtain ⟨rfl, rfl⟩ := h
      change (if Numeral.isDigit c then some Run.number else none).map _ = _
      rw [if_pos hdigit, Option.map_some]
    · obtain rfl := h.eq_run_number hstart hpoint
      exact next?_number_of_isDigit hdigit seen

/-- Behind its first character a numeral goes on with each further character. -/
theorem continued {part next : NumeralPart} (hstart : part ≠ start) (h : part.At seen p)
    (hnext : part.next? c = some next) :
    ∃ p', next.At (c :: seen) p' ∧ scanner.next? p (.char c) = some p' := by
  by_cases hdigit : Numeral.isDigit c = true
  · exact ⟨_, h.continued_digit hstart hdigit hnext⟩
  cases part with
  | start => exact absurd rfl hstart
  | point | sign | exponent =>
    rw [next?, if_neg hdigit] at hnext
    cases hnext
  | whole =>
    obtain rfl : p = .run .number seen := h
    rw [next?, if_neg hdigit] at hnext
    split at hnext
    · next hpoint =>
      subst hpoint
      obtain rfl := Option.some.inj hnext
      exact ⟨_, rfl, rfl⟩
    · split at hnext
      · next hmark =>
        obtain rfl := Option.some.inj hnext
        exact ⟨_, ⟨hmark, rfl⟩, next?_number_of_isExponentMark hmark seen⟩
      · cases hnext
  | fraction =>
    obtain rfl : p = .run .number seen := h
    rw [next?, if_neg hdigit] at hnext
    split at hnext
    · next hmark =>
      obtain rfl := Option.some.inj hnext
      exact ⟨_, ⟨hmark, rfl⟩, next?_number_of_isExponentMark hmark seen⟩
    · cases hnext
  | mark =>
    obtain ⟨hmark, rfl⟩ := h
    rw [next?, if_neg hdigit] at hnext
    split at hnext
    · next hsign =>
      obtain rfl := Option.some.inj hnext
      refine ⟨_, rfl, next?_number ?_⟩
      rw [continuesNumber, hmark]
      simpa using Or.inr hsign
    · cases hnext

theorem step {part next : NumeralPart} (h : part.At seen p) (hnext : part.next? c = some next)
    (rest : List Atom) : ∃ p', next.At (c :: seen) p' ∧
      scanner.read p (.char c :: rest) = scanner.read p' rest := by
  by_cases hpart : part = start
  · subst hpart
    exact h.step_start hnext rest
  · obtain ⟨p', hp', hread⟩ := h.continued hpart hnext
    exact ⟨p', hp', read_of_next hread rest⟩

/-- By induction on the characters still to come: reader and numeral stay together. -/
theorem read_eq {part : NumeralPart} {cs : List Char} (h : part.At seen p)
    (hcs : part.accepts cs = true) (rest : List Atom) :
    scanner.read p (cs.map .char ++ rest) =
      scanner.read (.run .number (cs.reverse ++ seen)) rest := by
  induction cs generalizing part seen p with
  | nil =>
    obtain rfl := h.eq_run_number (by rintro rfl; cases hcs) (by rintro rfl; cases hcs)
    rfl
  | cons c cs ih =>
    rw [accepts] at hcs
    cases hnext : part.next? c with
    | none =>
      rw [hnext] at hcs
      cases hcs
    | some next =>
      rw [hnext] at hcs
      obtain ⟨p', hp', hstep⟩ := h.step hnext (cs.map .char ++ rest)
      rw [List.map_cons, List.cons_append, hstep, ih hp' hcs, List.reverse_cons, List.append_assoc,
        List.singleton_append]

end NumeralPart.At

theorem Spells.number {s : String} (h : IsNumeral s) : Spells (chars s) [.number s] := by
  intro rest hrest
  have hstart : NumeralPart.start.At [] .outside := ⟨rfl, rfl⟩
  rw [chars, hstart.read_eq h, List.append_nil,
    read_of_ended fun a ha => next?_number_of_isBreak (hrest a ha), finished,
    List.reverse_reverse, String.ofList_toList]
  rfl

/-- What is left of a numeral without its sign, if it has one. -/
def unsignedPart : List Char → List Char
  | '+' :: rest | '-' :: rest => rest
  | cs => cs

/-- A numeral with at most one sign before it. -/
def IsSignedNumeral (s : String) : Prop := NumeralPart.accepts .start (unsignedPart s.toList) = true

instance (s : String) : Decidable (IsSignedNumeral s) := inferInstanceAs (Decidable (_ = true))

/-- The sign of a number is a lexeme of its own. -/
def ofNumeral (s : String) : List Lexeme :=
  match s.toList with
  | '+' :: rest => [.sign "+", .number (String.ofList rest)]
  | '-' :: rest => [.sign "-", .number (String.ofList rest)]
  | _ => [.number s]

theorem IsNumeral.unsigned {s : String} (h : IsNumeral s) :
    unsignedPart s.toList = s.toList ∧ ofNumeral s = [.number s] := by
  rw [IsNumeral] at h
  unfold unsignedPart ofNumeral
  split
  · next rest hs =>
    rw [hs] at h
    cases h
  · next rest hs =>
    rw [hs] at h
    cases h
  · exact ⟨rfl, rfl⟩

theorem IsNumeral.isSigned {s : String} (h : IsNumeral s) : IsSignedNumeral s := by
  rw [IsSignedNumeral, h.unsigned.1]
  exact h

theorem Spells.ofNumeral {s : String} (h : IsSignedNumeral s) :
    Spells (chars s) (ofNumeral s) := by
  rw [IsSignedNumeral] at h
  unfold unsignedPart at h
  unfold Lexeme.ofNumeral
  split at h
  · next rest hs =>
    have hrest : IsNumeral (String.ofList rest) := by rwa [IsNumeral, String.toList_ofList]
    have hsign : Delimited [.char '+'] [.sign "+"] := fun _ => rfl
    have hall := hsign.append_spells (Spells.number hrest)
    rw [chars, String.toList_ofList] at hall
    rw [chars, hs]
    exact hall
  · next rest hs =>
    have hrest : IsNumeral (String.ofList rest) := by rwa [IsNumeral, String.toList_ofList]
    have hsign : Delimited [.char '-'] [.sign "-"] := fun _ => rfl
    have hall := hsign.append_spells (Spells.number hrest)
    rw [chars, String.toList_ofList] at hall
    rw [chars, hs]
    exact hall
  · exact Spells.number h

/-- What a numeral goes on with is neither a quote nor a placeholder. -/
theorem NumeralPart.plain_of_next? {part next : NumeralPart} {c : Char}
    (h : part.next? c = some next) : SqlText.isQuote c = false ∧ c ≠ '?' ∧ c ≠ '$' := by
  have hall : Numeral.isDigit c = true ∨ c = '.' ∨ isExponentMark c = true ∨ c = '+' ∨ c = '-' := by
    cases part <;> grind [next?]
  rcases hall with hdigit | rfl | hmark | rfl | rfl
  · have hall : ∀ x ∈ [c], Numeral.isDigit x = true := List.forall_mem_singleton.mpr hdigit
    exact SqlText.isPlain_of_isDigit hall c List.mem_cons_self
  · decide
  · simp only [isExponentMark, Bool.or_eq_true, decide_eq_true_eq] at hmark
    rcases hmark with rfl | rfl <;> decide
  · decide
  · decide

theorem NumeralPart.isPlain_of_accepts {part : NumeralPart} {cs : List Char}
    (h : part.accepts cs = true) : SqlText.IsPlain cs := by
  induction cs generalizing part with
  | nil => nofun
  | cons c cs ih =>
    rw [accepts] at h
    cases hnext : part.next? c with
    | none =>
      rw [hnext] at h
      cases h
    | some next =>
      rw [hnext] at h
      exact List.forall_mem_cons.mpr ⟨plain_of_next? hnext, ih h⟩

theorem IsSignedNumeral.isPlain {s : String} (h : IsSignedNumeral s) : SqlText.IsPlain s.toList := by
  have hrest := NumeralPart.isPlain_of_accepts h
  unfold unsignedPart at hrest
  split at hrest
  · next rest hs =>
    rw [hs]
    exact List.forall_mem_cons.mpr ⟨by decide, hrest⟩
  · next rest hs =>
    rw [hs]
    exact List.forall_mem_cons.mpr ⟨by decide, hrest⟩
  · exact hrest

end Lexeme

end RecordMapper
