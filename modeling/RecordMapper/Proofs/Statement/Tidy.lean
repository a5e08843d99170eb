import RecordMapper.Proofs.Statement.Placeholder

/-!
# Tidy pieces of SQL

Pieces that can stand behind anything are put together freely. A piece that may begin with a digit
has to stand behind a word.
-/

set_option autoImplicit false

namespace RecordMapper.Sql

open SqlText

/-- A tidy piece that can stand behind a parameter. -/
structure Detached (s : Sql) : Prop where
  tidy : s.Tidy
  opens : s.opens = true

theorem Detached.nil : Detached [] := ⟨trivial, rfl⟩

theorem Detached.param (v : Value) : Detached (Sql.param v) := ⟨⟨rfl, trivial⟩, rfl⟩

theorem Detached.append {a b : Sql} (ha : a.Detached) (hb : b.Detached) : Detached (a ++ b) :=
  ⟨ha.tidy.append hb.tidy hb.opens, opens_append ha.opens hb.opens⟩

theorem tidy_text {s : String} (h : Balanced s) : Tidy (Sql.text s) := ⟨h, trivial⟩

/-- Behind a word any tidy piece can stand. -/
theorem Detached.text_append {s : String} {a : Sql} (hs : Word s) (ha : a.Tidy) :
    Detached (Sql.text s ++ a) := by
  refine ⟨⟨hs.balanced, ha⟩, ?_⟩
  rw [Sql.text, List.cons_append, Sql.opens, if_neg, hs.leads]
  intro hnil
  have hleads := hs.leads
  rw [hnil] at hleads
  exact absurd hleads (by decide)

theorem Detached.text {s : String} (h : Word s) : Detached (Sql.text s) :=
  text_append (a := []) h trivial

theorem Detached.enclosed {left right : String} {a : Sql} (hleft : Word left) (ha : a.Tidy)
    (hright : Word right) : Detached (Sql.text left ++ a ++ Sql.text right) := by
  rw [List.append_assoc]
  exact text_append hleft (ha.append (text hright).tidy (text hright).opens)

theorem Tidy.separated {separator : String} (hseparator : Word separator) {items : List Sql}
    (h : ∀ item ∈ items, Tidy item) : Tidy (separated separator items) := by
  induction items using List.twoStepInduction with
  | nil => trivial
  | singleton item => exact h item List.mem_cons_self
  | cons_cons item next others _ ih =>
    have hrest := ih next fun x hx => h x (List.mem_cons_of_mem item hx)
    have hdetached := Detached.text_append hseparator hrest
    rw [Sql.separated, List.append_assoc]
    exact (h item List.mem_cons_self).append hdetached.tidy hdetached.opens

theorem Detached.separated {separator : String} (hseparator : Word separator) {items : List Sql}
    (h : ∀ item ∈ items, Detached item) : Detached (separated separator items) := by
  induction items using List.twoStepInduction with
  | nil => exact .nil
  | singleton item => exact h item List.mem_cons_self
  | cons_cons item next others _ ih =>
    have hrest := ih next fun x hx => h x (List.mem_cons_of_mem item hx)
    rw [Sql.separated]
    exact ((h item List.mem_cons_self).append (text hseparator)).append hrest

theorem Detached.commas {items : List Sql} (h : ∀ item ∈ items, Detached item) :
    Detached (commas items) :=
  .separated (.literal rfl) h

theorem Detached.flatten {items : List Sql} (h : ∀ item ∈ items, Detached item) :
    Detached items.flatten := by
  induction items with
  | nil => exact .nil
  | cons item rest ih =>
    rw [List.flatten_cons]
    exact (h item List.mem_cons_self).append (ih fun x hx => h x (List.mem_cons_of_mem item hx))

end RecordMapper.Sql
