import RecordMapper.Dialect.Products

/-!
# Reading identifiers back

A quoted identifier ends at the first delimiter that is not doubled. A name is quoted by doubling
the delimiters in it, so it is read back whatever it consists of, and what stands behind the
identifier is left alone unless it begins with one more delimiter.

A table is written as its name, behind its schema and a point if it has one. Both are read back, so
different tables are written differently, even where a name contains what looks like a schema.
-/

set_option autoImplicit false

namespace RecordMapper

/-- The delimiter of the product's quoted identifiers, as it is set up from the start. -/
def Product.identifierDelimiter : Product → Char
  | mySql => Char.ofNat 96
  | _ => '"'

namespace Text

variable {delimiter : Char}

/-- What an identifier is and what is left behind it, read from behind its opening delimiter. -/
def identifierBody? (delimiter : Char) : List Char → Option (List Char × List Char)
  | [] => none
  | [c] => if c = delimiter then some ([], []) else none
  | c :: d :: rest =>
    if c = delimiter then
      if d = delimiter then
        (identifierBody? delimiter rest).map fun (t, behind) => (delimiter :: t, behind)
      else some ([], d :: rest)
    else (identifierBody? delimiter (d :: rest)).map fun (t, behind) => (c :: t, behind)

/-- The quoted identifier at the beginning of a text, and the text behind it. -/
def identifier? (delimiter : Char) (s : String) : Option (String × String) :=
  match s.toList with
  | [] => none
  | c :: rest =>
    if c = delimiter then
      (identifierBody? delimiter rest).map fun (t, behind) =>
        (String.ofList t, String.ofList behind)
    else none

/-- The identifiers of a whole text, two of them with a point in between or a single one. -/
def qualified? (delimiter : Char) (s : String) : Option (Option String × String) :=
  (identifier? delimiter s).bind fun (first, behind) =>
    match behind.toList with
    | [] => some (none, first)
    | c :: rest =>
      if c = '.' then
        (identifier? delimiter (String.ofList rest)).bind fun (second, behind) =>
          if behind = "" then some (some first, second) else none
      else none

theorem identifierBody?_doubled {t behind : List Char} (hbehind : behind.head? ≠ some delimiter) :
    identifierBody? delimiter (doubled delimiter t ++ delimiter :: behind) = some (t, behind) := by
  induction t with
  | nil =>
    cases behind with
    | nil => simp [doubled, identifierBody?]
    | cons c rest =>
      have hc : c ≠ delimiter := fun h => hbehind (congrArg some h)
      simp [doubled, identifierBody?, hc]
  | cons c t ih =>
    by_cases hc : c = delimiter
    · simp [doubled, identifierBody?, hc, ih]
    · -- behind a character that stands for itself there is always another one
      cases hrest : doubled delimiter t ++ delimiter :: behind with
      | nil => exact absurd hrest (by simp)
      | cons d rest =>
        rw [doubled, if_neg hc, List.cons_append, hrest, identifierBody?, if_neg hc, ← hrest, ih,
          Option.map_some]

theorem eq_doubled_of_identifierBody? {cs t behind : List Char}
    (h : identifierBody? delimiter cs = some (t, behind)) :
    cs = doubled delimiter t ++ delimiter :: behind ∧ behind.head? ≠ some delimiter := by
  fun_induction identifierBody? delimiter cs generalizing t with
  | case1 => cases h
  | case2 =>
    obtain ⟨rfl, rfl⟩ := Prod.mk.inj (Option.some.inj h)
    exact ⟨rfl, nofun⟩
  | case3 => cases h
  | case4 rest ih =>
    obtain ⟨⟨u, left⟩, hu, heq⟩ := Option.map_eq_some_iff.mp h
    obtain ⟨rfl, rfl⟩ := Prod.mk.inj heq
    obtain ⟨rfl, hleft⟩ := ih hu
    exact ⟨by simp [doubled], hleft⟩
  | case5 d rest hd =>
    obtain ⟨rfl, rfl⟩ := Prod.mk.inj (Option.some.inj h)
    exact ⟨rfl, fun heq => hd (Option.some.inj heq)⟩
  | case6 c d rest hc ih =>
    obtain ⟨⟨u, left⟩, hu, heq⟩ := Option.map_eq_some_iff.mp h
    obtain ⟨rfl, rfl⟩ := Prod.mk.inj heq
    obtain ⟨hrest, hleft⟩ := ih hu
    exact ⟨by rw [doubled, if_neg hc, List.cons_append, hrest], hleft⟩

/-- What is read as an identifier is the quoted name, and no text is read as one otherwise. -/
theorem identifier?_eq_some_iff {s name behind : String} :
    identifier? delimiter s = some (name, behind) ↔
      s = quoted delimiter name ++ behind ∧ behind.toList.head? ≠ some delimiter := by
  constructor
  · intro h
    unfold identifier? at h
    split at h
    · cases h
    · next c rest hs =>
      split at h
      · next hc =>
        obtain ⟨⟨t, left⟩, ht, heq⟩ := Option.map_eq_some_iff.mp h
        obtain ⟨rfl, rfl⟩ := Prod.mk.inj heq
        obtain ⟨rfl, hleft⟩ := eq_doubled_of_identifierBody? ht
        refine ⟨String.toList_inj.mp ?_, by rwa [String.toList_ofList]⟩
        simp [quoted, hs, hc]
      · cases h
  · rintro ⟨rfl, hbehind⟩
    have hs : (quoted delimiter name ++ behind).toList =
        delimiter :: (doubled delimiter name.toList ++ delimiter :: behind.toList) := by
      simp [quoted]
    simp [identifier?, hs, identifierBody?_doubled hbehind]

theorem identifier?_quoted {name : String} :
    identifier? delimiter (quoted delimiter name) = some (name, "") :=
  identifier?_eq_some_iff.mpr ⟨String.append_empty.symm, nofun⟩

theorem qualified?_quoted {name : String} :
    qualified? delimiter (quoted delimiter name) = some (none, name) := by
  simp [qualified?, identifier?_quoted]

theorem qualified?_quoted_point (hdelimiter : delimiter ≠ '.') {schema name : String} :
    qualified? delimiter (quoted delimiter schema ++ "." ++ quoted delimiter name) =
      some (some schema, name) := by
  have hbehind : ("." ++ quoted delimiter name).toList = '.' :: (quoted delimiter name).toList := by
    simp
  have hfirst : identifier? delimiter (quoted delimiter schema ++ ("." ++ quoted delimiter name)) =
      some (schema, "." ++ quoted delimiter name) := by
    refine identifier?_eq_some_iff.mpr ⟨rfl, ?_⟩
    rw [hbehind]
    exact fun h => hdelimiter (Option.some.inj h).symm
  rw [String.append_assoc, qualified?, hfirst, Option.bind_some]
  simp [hbehind, identifier?_quoted]

end Text

namespace Dialect

/-- Each product is written to with the delimiter that it reads. -/
@[simp] theorem identifierMark_ofProduct (p : Product) (version : ProductVersion) :
    (ofProduct p version).identifierMark = p.identifierDelimiter := by
  cases p <;> rfl

@[simp] theorem qualified?_tableName (p : Product) (version : ProductVersion) (t : Table) :
    Text.qualified? p.identifierDelimiter ((ofProduct p version).tableName t) =
      some (t.schema, t.name) := by
  have hdelimiter : p.identifierDelimiter ≠ '.' := by
    cases p <;> decide
  unfold tableName quote
  rw [identifierMark_ofProduct]
  cases t.schema with
  | none => exact Text.qualified?_quoted
  | some schema => exact Text.qualified?_quoted_point hdelimiter

/-- A quoted name is read back as that name, with everything behind it left alone that does not
begin with a delimiter, and nothing else is read as it. So tables are written alike only if they
have the same schema, or none, and the same name. -/
theorem identifiers_read_back (p : Product) (version : ProductVersion) :
    (∀ s name behind, Text.identifier? p.identifierDelimiter s = some (name, behind) ↔
      s = (ofProduct p version).quote name ++ behind ∧
        behind.toList.head? ≠ some p.identifierDelimiter) ∧
    (∀ t : Table, Text.qualified? p.identifierDelimiter ((ofProduct p version).tableName t) =
      some (t.schema, t.name)) ∧
    (∀ t other : Table,
      (ofProduct p version).tableName t = (ofProduct p version).tableName other ↔
        t.schema = other.schema ∧ t.name = other.name) := by
  refine ⟨?_, qualified?_tableName p version, ?_⟩
  · intro s name behind
    rw [quote, identifierMark_ofProduct]
    exact Text.identifier?_eq_some_iff
  · intro t other
    constructor
    · intro h
      have hread := qualified?_tableName p version t
      rw [h, qualified?_tableName p version other] at hread
      obtain ⟨hschema, hname⟩ := Prod.mk.inj (Option.some.inj hread)
      exact ⟨hschema.symm, hname.symm⟩
    · rintro ⟨hschema, hname⟩
      simp only [tableName, hschema, hname]

/-- A point or a delimiter in a name does not make it a schema and a name. -/
example : postgreSql.tableName { name := "b", schema := some "a" } = "\"a\".\"b\"" ∧
    postgreSql.tableName { name := "a\".\"b" } = "\"a\"\".\"\"b\"" := by
  decide

end Dialect

end RecordMapper
