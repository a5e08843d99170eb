import RecordMapper.Proofs.Query.Lexemes

/-!
# What comes behind the conditions

Rows are grouped, ordered and cut down to a page by sections behind the conditions of a statement.
-/

set_option autoImplicit false

namespace RecordMapper

open Lexeme

namespace Query

/-- Sections that come behind the conditions. -/
def backWords : List String := ["GROUP", "ORDER", "LIMIT", "OFFSET", "FETCH"]

/-- Sections that say which rows of the result are asked for. -/
def pageWords : List String := ["LIMIT", "OFFSET", "FETCH"]

/-- The section of a clause, which is not written if it has no items. -/
def clauseSections (w : String) (items : List (List Lexeme)) : List StatementSection :=
  if items.isEmpty then [] else [(w, .word "BY" :: [.sign ","].intercalate items)]

/-- A piece of sections that ask for a page. -/
def IsPaging (Q : String → Prop) (a : List Atom) : Prop :=
  ∃ secs, Lays Q a secs ∧ ∀ sec ∈ secs, sec.1 ∈ pageWords

section Back
variable {Q : String → Prop} {a b : List Atom}

theorem IsPaging.nil : IsPaging Q [] := ⟨[], .nil, List.forall_mem_nil _⟩

theorem IsPaging.append (ha : IsPaging Q a) (hb : IsPaging Q b) : IsPaging Q (a ++ b) := by
  obtain ⟨secs, hsecs, hwords⟩ := ha
  obtain ⟨others, hothers, hotherWords⟩ := hb
  exact ⟨secs ++ others, hsecs.append hothers, List.forall_mem_append.mpr ⟨hwords, hotherWords⟩⟩

/-- A clause that has no items is not written. -/
theorem lays_clause {α : Type} {w keyword : String} {write : α → Sql} {ls : α → List Lexeme}
    {xs : List α} (hw : Text.upper w ∈ sectionWords)
    (hkeyword : Delimited (Sql.chars keyword) [.word w, .word "BY"])
    (hblank : (Sql.chars keyword).head? = some (.char ' '))
    (h : ∀ x ∈ xs, IsPiece Q (write x).atoms (ls x)) :
    Lays Q (clause keyword (xs.map write)).atoms (clauseSections w (xs.map ls)) := by
  have hby : IsBody Q [.word "BY"] := .word (by decide)
  unfold clause clauseSections
  rw [List.isEmpty_map, List.isEmpty_map]
  split
  · exact .nil
  · rw [Sql.atoms_append, Sql.atoms_text]
    exact .single hw hkeyword hblank rfl hby (.commas h)

theorem word_of_mem_clauseSections {w : String} {items : List (List Lexeme)}
    {sec : StatementSection} (h : sec ∈ clauseSections w items) : sec.1 = w := by
  unfold clauseSections at h
  split at h
  · exact absurd h List.not_mem_nil
  · obtain rfl := List.mem_singleton.mp h
    rfl

theorem isPiece_ofNat (n : Nat) :
    IsPiece Q (Sql.chars (Numeral.ofNat n)) [.number (Numeral.ofNat n)] :=
  ⟨.number (isNumeral_ofNat n), .number (Numeral.ofNat n)⟩

theorem isPiece_ofNumeral {s : String} (h : IsSignedNumeral s) :
    IsPiece Q (Sql.chars s) (ofNumeral s) := by
  refine ⟨.ofNumeral h, ?_⟩
  unfold ofNumeral
  split
  · have hsign : IsBody Q [.sign "+"] := .sign (by decide)
    exact (isAdditive_isBody Q).append hsign (.number _)
  · have hsign : IsBody Q [.sign "-"] := .sign (by decide)
    exact (isAdditive_isBody Q).append hsign (.number _)
  · exact .number s

/-- A number behind a keyword. -/
theorem isPaging_number {w keyword number : String} {before ls : List Lexeme} (hw : w ∈ pageWords)
    (hkeyword : Delimited (Sql.chars keyword) (.word w :: before)) (hbefore : IsBody Q before)
    (hblank : (Sql.chars keyword).head? = some (.char ' '))
    (h : IsPiece Q (Sql.chars number) ls) : IsPaging Q (Sql.text (keyword ++ number)).atoms := by
  have hwords : ∀ w ∈ pageWords, Text.upper w ∈ sectionWords := by decide
  rw [Sql.atoms_text, Sql.chars_append]
  exact ⟨_, .single (hwords w hw) hkeyword hblank rfl hbefore h, List.forall_mem_singleton.mpr hw⟩

/-- A number with fixed words behind it. -/
theorem isPiece_counted (n : Nat) {words : String} {ls : List Lexeme}
    (hblank : (Sql.chars words).head? = some (.char ' ')) (h : IsPiece Q (Sql.chars words) ls) :
    IsPiece Q (Sql.chars (Numeral.ofNat n ++ words)) ([.number (Numeral.ofNat n)] ++ ls) := by
  rw [Sql.chars_append]
  refine (isPiece_ofNat n).append h ?_
  intro first hfirst
  rw [hblank] at hfirst
  obtain rfl := Option.some.inj hfirst
  rfl

theorem isPaging_limit {number : String} {ls : List Lexeme} (h : IsPiece Q (Sql.chars number) ls) :
    IsPaging Q (Sql.text (" LIMIT " ++ number)).atoms :=
  isPaging_number (by decide) (fun _ => rfl) (isAdditive_isBody Q).nil rfl h

theorem isPaging_offset {number : String} {ls : List Lexeme} (h : IsPiece Q (Sql.chars number) ls) :
    IsPaging Q (Sql.text (" OFFSET " ++ number)).atoms :=
  isPaging_number (by decide) (fun _ => rfl) (isAdditive_isBody Q).nil rfl h

/-- The rows that are skipped, in the words of the standard. -/
theorem isPaging_skipped (n : Nat) :
    IsPaging Q (Sql.text (" OFFSET " ++ Numeral.ofNat n ++ " ROWS")).atoms := by
  have hblank : Delimited (Sql.chars " ") [] := fun _ => rfl
  have hend : IsPiece Q (Sql.chars " ROWS") [.word "ROWS"] :=
    ⟨hblank.append_spells (Spells.word (s := "ROWS") rfl), .word (by decide)⟩
  rw [String.append_assoc]
  exact isPaging_offset (isPiece_counted n rfl hend)

/-- The rows that are taken, in the words of the standard. -/
theorem isPaging_fetched (n : Nat) :
    IsPaging Q (Sql.text (" FETCH NEXT " ++ Numeral.ofNat n ++ " ROWS ONLY")).atoms := by
  have hrows : Delimited (Sql.chars " ROWS ") [.word "ROWS"] := fun _ => rfl
  have hnext : IsBody Q [.word "NEXT"] := .word (by decide)
  have hmore : IsPiece Q (Sql.chars " ROWS ONLY") [.word "ROWS", .word "ONLY"] :=
    ⟨hrows.append_spells (Spells.word (s := "ONLY") rfl), .of_forall (by decide)⟩
  rw [String.append_assoc]
  exact isPaging_number (by decide) (fun _ => rfl) hnext rfl (isPiece_counted n rfl hmore)

theorem isPaging_page {d : Dialect} (hd : d.Delimits) {limit offset : Option Nat} {page : Sql}
    (h : d.page limit offset = .ok page) : IsPaging Q page.atoms := by
  unfold Dialect.page at h
  split at h
  · obtain rfl := Except.ok.inj h
    exact .nil
  · split at h
    · obtain rfl := Except.ok.inj h
      rw [Sql.atoms_append]
      refine .append ?_ ?_
      · cases limit with
        | none => exact .nil
        | some n => exact isPaging_limit (isPiece_ofNat n)
      · cases offset with
        | none => exact .nil
        | some n => exact isPaging_offset (isPiece_ofNat n)
    · next everything hpaging =>
      split at h
      · obtain rfl := Except.ok.inj h
        rw [Sql.atoms_append]
        refine (isPaging_limit (isPiece_ofNat _)).append ?_
        cases offset with
        | none => exact .nil
        | some n => exact isPaging_offset (isPiece_ofNat n)
      · obtain rfl := Except.ok.inj h
        rw [Sql.atoms_append]
        refine (isPaging_limit (isPiece_ofNumeral (hd.everything everything hpaging))).append ?_
        cases offset with
        | none => exact .nil
        | some n => exact isPaging_offset (isPiece_ofNat n)
    · obtain rfl := Except.ok.inj h
      rw [Sql.atoms_append]
      refine (isPaging_skipped _).append ?_
      cases limit with
      | none => exact .nil
      | some n => exact isPaging_fetched n
    · cases h

end Back

end Query

end RecordMapper
