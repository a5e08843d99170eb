import Mathlib.Algebra.Ring.Nat
import RecordMapper.Error
import RecordMapper.Statement.Basic

/-!
# The weight of SQL

SQL that is put together from the same pieces in another way can be as long as before: `(x = 0)` and
`NOT (x)` are. A weight that counts every sign of equality three times tells such texts apart. It
adds up over the pieces, and for texts with the same parameters it can be read off the text that is
written.
-/

set_option autoImplicit false

namespace RecordMapper

def charWeight (c : Char) : Nat := if c = '=' then 3 else 1

def textWeight (s : String) : Nat := (s.toList.map charWeight).sum

@[simp] theorem textWeight_append (s t : String) :
    textWeight (s ++ t) = textWeight s + textWeight t := by
  simp [textWeight]

/-- What the placeholders of `n` parameters weigh, counted on from `bound`. -/
def PlaceholderStyle.weight (style : PlaceholderStyle) (bound : Nat) : Nat → Nat
  | 0 => 0
  | n + 1 => textWeight (style.placeholder (bound + 1)) + style.weight (bound + 1) n

namespace Sql

def weight : Sql → Nat
  | [] => 0
  | .text s :: rest => textWeight s + weight rest
  | .param _ :: rest => weight rest

@[simp] theorem weight_text (s : String) : (text s).weight = textWeight s := rfl

@[simp] theorem params_text (s : String) : (text s).params = [] := rfl

@[simp] theorem weight_append (s t : Sql) : weight (s ++ t) = weight s + weight t := by
  induction s with
  | nil => simp [weight]
  | cons f rest ih => cases f <;> simp [weight, ih, Nat.add_assoc]

theorem textWeight_written (style : PlaceholderStyle) (bound : Nat) (s : Sql) :
    textWeight (s.written style bound) = s.weight + style.weight bound s.params.length := by
  induction s generalizing bound with
  | nil => rfl
  | cons f rest ih =>
    cases f with
    | text s => rw [written, textWeight_append, ih, weight, params, Nat.add_assoc]
    | param v =>
      rw [written, textWeight_append, ih, weight, params, List.length_cons,
        PlaceholderStyle.weight]
      omega

/-- Texts with the same parameters differ where their weights do. -/
theorem written_ne_of_weight_ne {s t : Sql} (hparams : s.params = t.params)
    (hweight : s.weight ≠ t.weight) (style : PlaceholderStyle) (bound : Nat) :
    s.written style bound ≠ t.written style bound := by
  intro heq
  have hwritten := congrArg textWeight heq
  rw [textWeight_written, textWeight_written, hparams] at hwritten
  omega

/-- Both fail in the same way, or both give SQL with the same parameters and with weights that are
in this relation. -/
def Compares (R : Nat → Nat → Prop) : Result Sql → Result Sql → Prop
  | .ok s, .ok t => s.params = t.params ∧ R s.weight t.weight
  | .error e, .error e' => e = e'
  | _, _ => False

/-- The texts differ, and still do when the same pieces are put around both. -/
def Apart : Result Sql → Result Sql → Prop := Compares (· ≠ ·)

/-- The weights differ by no more than that of a negation. -/
def Near : Result Sql → Result Sql → Prop := Compares fun m n => m ≤ n + 6 ∧ n ≤ m + 6

/-- The first weighs more than the second, by more than `n`. -/
def Heavier (n : Nat) : Result Sql → Result Sql → Prop := Compares fun l m => m + n < l

/-- The pieces one after the other; the first that fails decides. -/
def concat : List (Result Sql) → Result Sql
  | [] => .ok []
  | piece :: rest => do
    let piece ← piece
    return piece ++ (← concat rest)

@[simp] theorem concat_map_ok (pieces : List Sql) :
    concat (pieces.map .ok) = .ok pieces.flatten := by
  induction pieces with
  | nil => rfl
  | cons piece rest ih => rw [List.map_cons, concat, ih]; rfl

theorem eq_concat_of_flatten (pieces : List Sql) {s : Sql} (h : s = pieces.flatten) :
    .ok s = concat (pieces.map .ok) := by
  rw [concat_map_ok, h]

/-- The last piece may be taken apart. -/
@[simp] theorem concat_append_concat (pieces more : List (Result Sql)) :
    concat (pieces ++ [concat more]) = concat (pieces ++ more) := by
  induction pieces with
  | nil =>
    rw [List.nil_append, List.nil_append, concat]
    cases concat more with
    | error e => rfl
    | ok s => exact congrArg Except.ok (List.append_nil s)
  | cons piece rest ih => rw [List.cons_append, List.cons_append, concat, concat, ih]

namespace Compares
variable {R : Nat → Nat → Prop} {x y : Result Sql}

theorem map_params (h : Compares R x y) : x.map params = y.map params := by
  cases x with
  | error e =>
    cases y with
    | error e' => exact congrArg Except.error h
    | ok t => exact h.elim
  | ok s =>
    cases y with
    | error e' => exact h.elim
    | ok t => exact congrArg Except.ok h.1

theorem mono {S : Nat → Nat → Prop} (hR : ∀ m n, R m n → S m n) (h : Compares R x y) :
    Compares S x y := by
  cases x with
  | error e =>
    cases y with
    | error e' => exact h
    | ok t => exact h
  | ok s =>
    cases y with
    | error e' => exact h
    | ok t => exact ⟨h.1, hR _ _ h.2⟩

theorem symm (hR : ∀ m n, R m n → R n m) (h : Compares R x y) : Compares R y x := by
  cases x with
  | error e =>
    cases y with
    | error e' => exact Eq.symm h
    | ok t => exact h
  | ok s =>
    cases y with
    | error e' => exact h
    | ok t => exact ⟨h.1.symm, hR _ _ h.2⟩

theorem trans {S T : Nat → Nat → Prop} {z : Result Sql} (hT : ∀ l m n, R l m → S m n → T l n)
    (h : Compares R x y) (h' : Compares S y z) : Compares T x z := by
  cases x with
  | error e =>
    cases y with
    | error e' =>
      obtain rfl : e = e' := h
      cases z with
      | error e'' => exact h'
      | ok u => exact h'
    | ok t => exact h.elim
  | ok s =>
    cases y with
    | error e' => exact h.elim
    | ok t =>
      cases z with
      | error e'' => exact h'
      | ok u => exact ⟨h.1.trans h'.1, hT _ _ _ h.2 h'.2⟩

theorem append_left (hR : ∀ m n k, R m n → R (m + k) (n + k)) (piece : Result Sql)
    (h : Compares R x y) :
    Compares R (do return (← piece) ++ (← x)) (do return (← piece) ++ (← y)) := by
  cases piece with
  | error e => rfl
  | ok a =>
    cases x with
    | error e =>
      cases y with
      | error e' => exact h
      | ok t => exact h
    | ok s =>
      cases y with
      | error e' => exact h
      | ok t =>
        obtain ⟨hparams, hweight⟩ := h
        refine ⟨by rw [params_append, params_append, hparams], ?_⟩
        rw [weight_append, weight_append, Nat.add_comm, Nat.add_comm a.weight]
        exact hR _ _ _ hweight

theorem append_right (hR : ∀ m n k, R m n → R (m + k) (n + k)) (rest : Result Sql)
    (h : Compares R x y) :
    Compares R (do return (← x) ++ (← rest)) (do return (← y) ++ (← rest)) := by
  cases x with
  | error e =>
    cases y with
    | error e' => exact h
    | ok t => exact h.elim
  | ok s =>
    cases y with
    | error e' => exact h.elim
    | ok t =>
      cases rest with
      | error e => rfl
      | ok a =>
        obtain ⟨hparams, hweight⟩ := h
        refine ⟨by rw [params_append, params_append, hparams], ?_⟩
        rw [weight_append, weight_append]
        exact hR _ _ _ hweight

/-- One piece is exchanged for another. -/
theorem concat (hR : ∀ m n k, R m n → R (m + k) (n + k)) (before : List (Result Sql))
    (h : Compares R x y) (after : List (Result Sql)) :
    Compares R (Sql.concat (before ++ x :: after)) (Sql.concat (before ++ y :: after)) := by
  induction before with
  | nil => exact h.append_right hR (Sql.concat after)
  | cons piece rest ih => exact ih.append_left hR piece

end Compares

theorem Apart.symm {x y : Result Sql} (h : Apart x y) : Apart y x :=
  Compares.symm (fun _ _ hne => hne.symm) h

theorem Near.symm {x y : Result Sql} (h : Near x y) : Near y x :=
  Compares.symm (fun _ _ hnear => hnear.symm) h

theorem Apart.concat {x y : Result Sql} (before : List (Result Sql)) (h : Apart x y)
    (after : List (Result Sql)) :
    Apart (Sql.concat (before ++ x :: after)) (Sql.concat (before ++ y :: after)) :=
  Compares.concat (fun _ _ _ hne => by omega) before h after

theorem Near.concat {x y : Result Sql} (before : List (Result Sql)) (h : Near x y)
    (after : List (Result Sql)) :
    Near (Sql.concat (before ++ x :: after)) (Sql.concat (before ++ y :: after)) :=
  Compares.concat (fun _ _ _ hnear => by omega) before h after

theorem Heavier.apart {n : Nat} {x y : Result Sql} (h : Heavier n x y) : Apart x y :=
  Compares.mono (fun _ _ hlm => by omega) h

@[simp] theorem weight_flatten (pieces : List Sql) :
    weight pieces.flatten = (pieces.map weight).sum := by
  induction pieces with
  | nil => rfl
  | cons piece rest ih => simp [ih]

theorem params_flatten_texts (texts : List String) : params (texts.map text).flatten = [] := by
  induction texts with
  | nil => rfl
  | cons s rest ih => exact ih

theorem weight_flatten_texts (texts : List String) :
    weight (texts.map text).flatten = (texts.map textWeight).sum := by
  rw [weight_flatten, List.map_map]
  rfl

/-- Texts around a piece add what they weigh. -/
theorem heavier_concat (before after : List String) (x : Result Sql) {n : Nat}
    (h : n < (before.map textWeight).sum + (after.map textWeight).sum) :
    Heavier n (concat ((before.map fun s => .ok (text s)) ++ x :: after.map fun s => .ok (text s)))
      x := by
  cases x with
  | error e =>
    have hfails (texts : List String) (rest : List (Result Sql)) :
        concat ((texts.map fun s => .ok (text s)) ++ .error e :: rest) = .error e := by
      induction texts with
      | nil => rfl
      | cons s texts ih => rw [List.map_cons, List.cons_append, concat, ih]; rfl
    rw [hfails]
    rfl
  | ok s =>
    have hpieces : ((before.map fun s => .ok (text s)) ++
        .ok s :: after.map fun s => .ok (text s) : List (Result Sql)) =
          (before.map text ++ s :: after.map text).map .ok := by
      simp [Function.comp_def]
    rw [hpieces, concat_map_ok, List.flatten_append, List.flatten_cons]
    refine ⟨?_, ?_⟩
    · rw [params_append, params_append, params_flatten_texts, params_flatten_texts]
      simp
    · rw [weight_append, weight_append, weight_flatten_texts, weight_flatten_texts]
      omega

theorem Heavier.trans {n k : Nat} {x y z : Result Sql} (h : Heavier n x y) (h' : Heavier k y z) :
    Heavier (n + k) x z :=
  Compares.trans (fun _ _ _ hlm hmn => by omega) h h'

/-- What weighs more by more than a negation does differs from all that is near. -/
theorem Heavier.apart_of_near {n : Nat} {x y z : Result Sql} (h : Heavier n x y) (hn : 6 ≤ n)
    (hnear : Near y z) : Apart x z :=
  Compares.trans (fun _ _ _ hlm hmn => by omega) h hnear

theorem Apart.written_ne {x y : Result Sql} (h : Apart x y) {s t : Sql} (hx : x = .ok s)
    (hy : y = .ok t) (style : PlaceholderStyle) (bound : Nat) :
    s.written style bound ≠ t.written style bound := by
  subst hx hy
  exact written_ne_of_weight_ne h.1 h.2 style bound

end Sql

end RecordMapper
