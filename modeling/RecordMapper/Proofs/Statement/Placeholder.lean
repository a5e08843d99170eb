import RecordMapper.Proofs.Statement.Scan
import RecordMapper.Statement.Inlined

/-!
# Placeholders and parameters line up

A statement lines up if its text shows one placeholder for each of its parameters, in order, and
writing the parameters in replaces these and nothing else. A body is tidy if its texts are balanced
and no digit follows a parameter; tidy bodies line up.
-/

set_option autoImplicit false

namespace RecordMapper

open SqlText

structure Statement.LinesUp (s : Statement) : Prop where
  placeholders : SqlText.placeholders s.sql =
    (List.range s.params.length).map fun k => s.style.placeholder (k + 1)
  inlined : s.inlined = SqlText.filled (s.params.map Value.literal) s.sql

namespace Sql

/-- Whether what is written does not begin with a digit. -/
def opens : Sql → Bool
  | [] => true
  | .text s :: rest => if s.toList = [] then opens rest else leads s.toList
  | .param _ :: _ => true

/-- Texts are balanced, and no digit follows a parameter. -/
def Tidy : Sql → Prop
  | [] => True
  | .text s :: rest => Balanced s ∧ Tidy rest
  | .param _ :: rest => opens rest = true ∧ Tidy rest

theorem opens_append {a b : Sql} (ha : a.opens = true) (hb : b.opens = true) :
    opens (a ++ b) = true := by
  induction a with
  | nil => exact hb
  | cons f rest ih =>
    cases f with
    | text s =>
      rw [opens] at ha
      rw [List.cons_append, opens]
      split
      · next hs =>
        rw [if_pos hs] at ha
        exact ih ha
      · next hs =>
        rw [if_neg hs] at ha
        exact ha
    | param v => rfl

theorem Tidy.append {a b : Sql} (ha : a.Tidy) (hb : b.Tidy) (hopens : b.opens = true) :
    Tidy (a ++ b) := by
  induction a with
  | nil => exact hb
  | cons f rest ih =>
    cases f with
    | text s => exact ⟨ha.1, ih ha.2⟩
    | param v => exact ⟨opens_append ha.1 hopens, ih ha.2⟩

def pieces (style : PlaceholderStyle) (bound : Nat) : Sql → List Piece
  | [] => []
  | .text s :: rest => s.toList.map .char ++ pieces style bound rest
  | .param _ :: rest =>
    .placeholder (style.placeholder (bound + 1)).toList :: pieces style (bound + 1) rest

/-- The text of a body with the parameters as literals. -/
def literals : Sql → List Char
  | [] => []
  | .text s :: rest => s.toList ++ literals rest
  | .param v :: rest => v.literal.toList ++ literals rest

section Scan
variable (style : PlaceholderStyle)

theorem head_placeholder {n : Nat} {rest : List Char} :
    ∀ c ∈ ((style.placeholder n).toList ++ rest).head?, Numeral.isDigit c = false := by
  intro c hc
  cases style with
  | positional =>
    obtain rfl : '?' = c := by simpa [PlaceholderStyle.placeholder] using hc
    rfl
  | numbered =>
    obtain rfl : '$' = c := by simpa [PlaceholderStyle.placeholder] using hc
    rfl

theorem head_written {body : Sql} (h : body.opens = true) (bound : Nat) :
    ∀ c ∈ (body.written style bound).toList.head?, Numeral.isDigit c = false := by
  induction body generalizing bound with
  | nil => simp [written]
  | cons f rest ih =>
    cases f with
    | text s =>
      rw [written, String.toList_append]
      rw [opens] at h
      split at h
      · next hs =>
        rw [hs]
        exact ih h bound
      · intro c hc
        cases hs : s.toList with
        | nil => contradiction
        | cons first others =>
          rw [hs] at h hc
          obtain rfl : first = c := by simpa using hc
          simpa [leads] using h
    | param v =>
      rw [written, String.toList_append]
      exact head_placeholder style

/-- A placeholder that no digit follows is one piece. -/
theorem pieces_placeholder (n : Nat) {rest : List Char}
    (hrest : ∀ c ∈ rest.head?, Numeral.isDigit c = false) :
    SqlText.pieces none ((style.placeholder n).toList ++ rest) =
      .placeholder (style.placeholder n).toList :: SqlText.pieces none rest := by
  cases style with
  | positional =>
    have hmark : (PlaceholderStyle.positional.placeholder n).toList = ['?'] := by
      simp [PlaceholderStyle.placeholder]
    rw [hmark, List.cons_append, SqlText.pieces, if_neg (by decide), if_pos rfl]
    rfl
  | numbered =>
    have hmark : (PlaceholderStyle.numbered.placeholder n).toList =
        '$' :: (Numeral.ofNat n).toList := by
      simp [PlaceholderStyle.placeholder]
    obtain ⟨htake, hdrop⟩ :=
      Numeral.takeWhile_isDigit_append
        (fun c hc => Numeral.isDigit_of_mem_ofNat (n := n) hc) hrest
    rw [hmark, List.cons_append, SqlText.pieces, htake, hdrop, if_neg (by decide),
      if_neg (by decide), if_pos ⟨rfl, ofNat_ne_nil n⟩]

theorem pieces_written {body : Sql} (h : body.Tidy) (bound : Nat) :
    SqlText.pieces none (body.written style bound).toList = body.pieces style bound := by
  induction body generalizing bound with
  | nil => simp [written, pieces, SqlText.pieces]
  | cons f rest ih =>
    cases f with
    | text s => rw [written, String.toList_append, pieces_append h.1, ih h.2, pieces]
    | param v =>
      rw [written, String.toList_append, pieces_placeholder style _ (head_written style h.1 _),
        ih h.2, pieces]

theorem marks_pieces (body : Sql) (bound : Nat) :
    (body.pieces style bound).filterMap Piece.mark? =
      (List.range body.params.length).map fun k => style.placeholder (bound + k + 1) := by
  induction body generalizing bound with
  | nil => rfl
  | cons f rest ih =>
    cases f with
    | text s =>
      have hchars : (s.toList.map Piece.char).filterMap Piece.mark? = [] := by
        rw [List.filterMap_map, List.filterMap_eq_nil_iff]
        intro c _
        rfl
      rw [pieces, List.filterMap_append, hchars, ih]
      rfl
    | param v =>
      have hmark : Piece.mark? (.placeholder (style.placeholder (bound + 1)).toList) =
          some (style.placeholder (bound + 1)) := by
        rw [Piece.mark?, String.ofList_toList]
      rw [pieces, List.filterMap_cons, hmark, ih, params, List.length_cons,
        List.range_succ_eq_map, List.map_cons, List.map_map]
      simp only [Nat.add_zero, List.cons.injEq, true_and]
      apply List.map_congr_left
      intro k _
      rw [Function.comp_apply, show bound + (k + 1) + 1 = bound + 1 + k + 1 from by omega]

theorem fill_pieces (body : Sql) (bound : Nat) :
    fill (body.params.map Value.literal) (body.pieces style bound) = body.literals := by
  induction body generalizing bound with
  | nil => rfl
  | cons f rest ih =>
    cases f with
    | text s =>
      rw [pieces, literals, params]
      generalize s.toList = cs
      induction cs with
      | nil => exact ih bound
      | cons c cs hcs => rw [List.map_cons, List.cons_append, fill, hcs, List.cons_append]
    | param v => rw [pieces, literals, params, List.map_cons, fill, ih]

end Scan

end Sql

namespace Statement.Inlined
variable {style : PlaceholderStyle} {params : List Value}

theorem settle_of_plain {s : State} (h : s.position = .plain) : s.settle params = s := by
  rw [State.settle, h]

theorem position_settle {s : State} (h : ∀ quote, s.position ≠ .quoted quote) :
    (s.settle params).position = .plain := by
  unfold State.settle
  cases hs : s.position with
  | plain => exact hs
  | quoted quote => exact absurd hs (h quote)
  | dollar => rfl
  | number n => rfl

theorem step_plain {s : State} (h : s.position = .plain) (c : Char) :
    s.step style params c = s.plain style params c := by
  rw [State.step, h, settle_of_plain h]

theorem step_quoted {s : State} {quote : Char} (h : s.position = .quoted quote) (c : Char) :
    s.step style params c =
      { s.write [c] with position := if c = quote then .plain else .quoted quote } := by
  rw [State.step, h]

theorem step_settle {s : State} (h : ∀ quote, s.position ≠ .quoted quote) {c : Char}
    (hc : Numeral.digit? 10 c = none) :
    s.step style params c = (s.settle params).step style params c := by
  rw [step_plain (position_settle h)]
  unfold State.step
  rw [hc]
  cases hs : s.position with
  | quoted quote => exact absurd hs (h quote)
  | plain => rfl
  | dollar => rfl
  | number n => rfl

theorem digit?_of_isDigit_eq_false {c : Char} (h : Numeral.isDigit c = false) :
    Numeral.digit? 10 c = none := by
  have hnot : ¬ ('0' ≤ c ∧ c ≤ '9') := by simpa [Numeral.isDigit] using h
  unfold Numeral.digit?
  rw [if_neg hnot]
  split
  · next hc => simp [Option.filter]
  · split
    · next hc => simp [Option.filter]
    · rfl

theorem settle_foldl_settle {s : State} (h : ∀ quote, s.position ≠ .quoted quote)
    {cs : List Char} (hcs : ∀ c ∈ cs.head?, Numeral.isDigit c = false) :
    (cs.foldl (State.step style params) s).settle params =
      (cs.foldl (State.step style params) (s.settle params)).settle params := by
  cases cs with
  | nil => exact (settle_of_plain (position_settle h)).symm
  | cons c rest =>
    rw [List.foldl_cons, List.foldl_cons, step_settle h (digit?_of_isDigit_eq_false (hcs c rfl))]

def positionIn : Option Char → Position
  | none => .plain
  | some quote => .quoted quote

theorem foldl_step_balanced {quote : Option Char} {cs : List Char} {s : State}
    (hcs : isBalanced quote cs = true) (hs : s.position = positionIn quote) :
    cs.foldl (State.step style params) s =
      { s with position := .plain, output := cs.reverse ++ s.output } := by
  induction cs generalizing quote s with
  | nil =>
    obtain rfl : quote = none := by simpa [isBalanced] using hcs
    obtain ⟨position, seen, output⟩ := s
    obtain rfl : position = .plain := hs
    rfl
  | cons c rest ih =>
    rw [List.foldl_cons, List.reverse_cons, List.append_assoc]
    cases quote with
    | some quote =>
      have hposition : (if c = quote then Position.plain else .quoted quote) =
          positionIn (if c = quote then none else some quote) := by
        split <;> rfl
      rw [step_quoted hs, hposition, ih hcs rfl]
      rfl
    | none =>
      rw [step_plain hs, State.plain]
      rw [isBalanced] at hcs
      by_cases hc : isQuote c = true
      · have hquote : c = '\'' ∨ c = '"' ∨ c = Char.ofNat 96 := by
          simpa [isQuote, or_assoc] using hc
        rw [if_pos hc] at hcs
        rw [if_pos hquote, ih hcs rfl]
        rfl
      · have hquote : ¬ (c = '\'' ∨ c = '"' ∨ c = Char.ofNat 96) := by
          simpa [isQuote, or_assoc] using hc
        rw [if_neg hc] at hcs
        simp only [Bool.and_eq_true, decide_eq_true_eq] at hcs
        obtain ⟨⟨hpositional, hnumbered⟩, hrest⟩ := hcs
        rw [if_neg hquote, if_neg (fun h => hpositional h.1), if_neg (fun h => hnumbered h.1),
          ih hrest (by exact hs)]
        rfl

theorem foldl_step_digits {digits : List Nat} (hdigits : ∀ d ∈ digits, d < 10) {s : State} {n : Nat}
    (hs : s.position = .number n) :
    (Numeral.chars digits).foldl (State.step style params) s =
      { s with position := .number (digits.foldl (fun acc d => acc * 10 + d) n) } := by
  induction digits generalizing s n with
  | nil =>
    obtain ⟨position, seen, output⟩ := s
    obtain rfl : position = .number n := hs
    rfl
  | cons d rest ih =>
    have hstep : s.step style params d.digitChar = { s with position := .number (n * 10 + d) } := by
      rw [State.step, hs, Numeral.digit?_digitChar (by decide) (hdigits d List.mem_cons_self)]
    rw [Numeral.chars, List.map_cons, List.foldl_cons, hstep]
    exact ih (fun x hx => hdigits x (List.mem_cons_of_mem d hx)) rfl

theorem foldl_step_number (n : Nat) {s : State} (hs : s.position = .dollar) :
    (Numeral.ofNat n).toList.foldl (State.step style params) s =
      { s with position := .number n } := by
  rw [Numeral.ofNat, String.toList_ofList]
  cases hdecimal : Numeral.decimal n with
  | nil =>
    have hnil := ofNat_ne_nil n
    rw [Numeral.ofNat, String.toList_ofList, hdecimal] at hnil
    exact absurd rfl hnil
  | cons d rest =>
    have hlt : ∀ x ∈ d :: rest, x < 10 := by
      intro x hx
      rw [← hdecimal] at hx
      exact Numeral.lt_of_mem_decimal hx
    have hvalue := Numeral.value_decimal n
    rw [hdecimal, Numeral.value, List.foldl_cons, Nat.zero_mul, Nat.zero_add] at hvalue
    have hstep : s.step style params d.digitChar = { s with position := .number d } := by
      rw [State.step, hs, Numeral.digit?_digitChar (by decide) (hlt d List.mem_cons_self)]
    rw [Numeral.chars, List.map_cons, List.foldl_cons, hstep]
    have hrest := fun x hx => hlt x (List.mem_cons_of_mem d hx)
    rw [← Numeral.chars, foldl_step_digits hrest rfl, hvalue]

/-- The scan stands outside everything and has counted `n` placeholders, if it has to count. -/
structure Synced (style : PlaceholderStyle) (n : Nat) (s : State) : Prop where
  position : s.position = .plain
  seen : style = .positional → s.seen = n

/-- A placeholder is replaced by its parameter, once it has ended. -/
theorem settle_foldl_placeholder {n : Nat} {v : Value} (hv : params[n]? = some v) {s : State}
    (hs : Synced style n s) {s' : State}
    (hrun : (style.placeholder (n + 1)).toList.foldl (State.step style params) s = s') :
    (∀ quote, s'.position ≠ .quoted quote) ∧ Synced style (n + 1) (s'.settle params) ∧
      (s'.settle params).output = v.literal.toList.reverse ++ s.output := by
  obtain ⟨hposition, hseen⟩ := hs
  have hliteral : literalAt params n = v.literal := by rw [literalAt, hv]; rfl
  subst hrun
  cases style with
  | positional =>
    have hmark : (PlaceholderStyle.positional.placeholder (n + 1)).toList = ['?'] := by
      simp [PlaceholderStyle.placeholder]
    have hstep : s.step .positional params '?' =
        { s.write (literalAt params s.seen).toList with seen := s.seen + 1 } := by
      rw [step_plain hposition, State.plain, if_neg (by decide), if_pos ⟨rfl, rfl⟩]
    rw [hmark, List.foldl_cons, List.foldl_nil, hstep, hseen rfl, hliteral]
    have hplain : ({ s.write v.literal.toList with seen := n + 1 } : State).position = .plain :=
      hposition
    rw [settle_of_plain hplain]
    refine ⟨?_, ⟨hplain, fun _ => rfl⟩, rfl⟩
    intro quote h
    rw [hplain] at h
    exact absurd h nofun
  | numbered =>
    have hmark : (PlaceholderStyle.numbered.placeholder (n + 1)).toList =
        '$' :: (Numeral.ofNat (n + 1)).toList := by
      simp [PlaceholderStyle.placeholder]
    have hstep : s.step .numbered params '$' = { s with position := .dollar } := by
      rw [step_plain hposition, State.plain, if_neg (by decide), if_neg nofun,
        if_pos ⟨rfl, rfl⟩]
    rw [hmark, List.foldl_cons, hstep,
      foldl_step_number (n + 1) (s := { s with position := .dollar }) rfl]
    refine ⟨nofun, ⟨rfl, nofun⟩, ?_⟩
    rw [State.settle]
    simp only [Nat.add_sub_cancel, hliteral]
    rfl

/-- By induction on the body: behind each fragment the scan stands outside everything, as soon as
the number of a placeholder has ended. -/
theorem output_foldl_written {body : Sql} (h : body.Tidy) {bound : Nat}
    (hparams : params.drop bound = body.params) {s : State} (hs : Synced style bound s) :
    (((body.written style bound).toList.foldl (State.step style params) s).settle params).output =
      body.literals.reverse ++ s.output := by
  induction body generalizing bound s with
  | nil =>
    rw [Sql.written, String.toList_empty, List.foldl_nil, settle_of_plain hs.position]
    rfl
  | cons f rest ih =>
    cases f with
    | text t =>
      have hposition : s.position = positionIn none := hs.position
      have hnext : Synced style bound
          { s with position := .plain, output := t.toList.reverse ++ s.output } :=
        ⟨rfl, hs.seen⟩
      rw [Sql.written, String.toList_append, List.foldl_append,
        foldl_step_balanced h.1 hposition, ih h.2 hparams hnext, Sql.literals,
        List.reverse_append, List.append_assoc]
    | param v =>
      have hv : params[bound]? = some v := by
        rw [← List.head?_drop, hparams]
        rfl
      have hrest : params.drop (bound + 1) = Sql.params rest := by
        rw [← List.tail_drop, hparams]
        rfl
      obtain ⟨houtside, hsynced, houtput⟩ := settle_foldl_placeholder hv hs rfl
      rw [Sql.written, String.toList_append, List.foldl_append,
        settle_foldl_settle houtside (Sql.head_written style h.1 (bound + 1)),
        ih h.2 hrest hsynced, houtput, Sql.literals, List.reverse_append, List.append_assoc]

end Statement.Inlined

theorem Sql.Tidy.linesUp {s : Statement} (h : s.body.Tidy) : s.LinesUp where
  placeholders := by
    rw [placeholders, Statement.sql, Sql.pieces_written s.style h, Sql.marks_pieces]
    simp only [Nat.zero_add]
    rfl
  inlined := by
    have hsynced : Statement.Inlined.Synced s.style 0 {} := ⟨rfl, fun _ => rfl⟩
    have hparams : s.params.drop 0 = s.body.params := rfl
    have houtput := Statement.Inlined.output_foldl_written h hparams hsynced
    rw [Statement.inlined, Statement.Inlined.ofChars, Statement.sql, houtput, filled,
      Sql.pieces_written s.style h, Statement.params, Sql.fill_pieces, List.append_nil,
      List.reverse_reverse]

end RecordMapper
