import RecordMapper.Proofs.Table.Consistency
import RecordMapper.Proofs.Table.Writing
import RecordMapper.Proofs.Workspace.Program
import RecordMapper.Query.Basic

/-!
# What an assignment of a query writes

A content is written in two ways: with its record, or by a query that assigns it to a field of an
alias. Both encode it for the column. A record is written by way of the adapter of the field, and
its texts are cut to the length of a trimming column; an assignment knows neither.
-/

set_option autoImplicit false

namespace RecordMapper

namespace Query
variable {q : Query} {a : Alias} {k i : Nat} {f : FieldMapping}

theorem columnAt?_field (ha : q.sources[k]? = some a) (hm : a.mapping.IsSealed)
    (hf : a.mapping.fields[i]? = some f) : q.columnAt? ⟨k, i⟩ = some f.column := by
  have htable : q.tables[k]? = some a.mapping.table := by
    rw [tables, List.getElem?_map, ha]
    rfl
  change (q.tables[k]?).bind (·.columns[i]?) = some f.column
  rw [htable, Option.bind_some, hm.consistent.columns, List.getElem?_map, hf]
  rfl

/-- An assignment that is accepted binds the content as its column encodes it. -/
theorem exists_assignment_of_set {field : Argument} {p : ColumnPosition} {c : Column}
    {v : FieldValue} {place : Place} (hfield : q.resolve field = .ok (some p))
    (hc : q.columnAt? p = some c) (h : (q.set field (.content v place)).error = none) :
    ∃ raw stored, v.toValue c.context = .ok raw ∧ raw.convertToSql c.sqlType = .ok stored ∧
      (q.set field (.content v place)).assignments = q.assignments ++ [(p, stored)] := by
  have hcolumn : q.column field = .ok p := by
    rw [column, hfield]
    rfl
  have hcontext : q.context? (.column p) = some c.context := by
    rw [context?, hc]
    rfl
  have hset : q.set field (.content v place) =
      q.call ((v.toValue c.context >>= (·.convertToSql c.sqlType)).map fun stored => (p, stored))
        fun q a => { q with assignments := q.assignments ++ [a] } := by
    rw [set, hcolumn]
    change q.call (((Argument.content v place).literal (q.context? (.column p))).map (p, ·)) _ = _
    rw [hcontext]
    rfl
  rw [hset] at h ⊢
  cases hencode : v.toValue c.context >>= (·.convertToSql c.sqlType) with
  | error e =>
    rw [hencode] at h
    change (q.fail e).error = none at h
    rw [error_fail] at h
    cases h
  | ok stored =>
    obtain ⟨raw, hraw, hstored⟩ := Result.bind_eq_ok_iff.mp hencode
    exact ⟨raw, stored, hraw, hstored, rfl⟩

/-- An assignment binds what the record writes exactly if the field has no adapter and its column
does not cut the value, or if the adapter happens to write that value itself. -/
theorem set_eq_get_iff {r : Record} {place : Place} (ha : q.sources[k]? = some a)
    (hm : a.mapping.IsSealed) (hf : a.mapping.fields[i]? = some f)
    (hfield : q.resolve (a.reference f.slot) = .ok (some ⟨k, i⟩))
    (h : (q.set (a.reference f.slot) (.content (r.get f.slot) place)).error = none) :
    ∃ raw bound, (r.get f.slot).toValue f.column.context = .ok raw ∧
      raw.convertToSql f.column.sqlType = .ok bound ∧
      (q.set (a.reference f.slot) (.content (r.get f.slot) place)).assignments =
        q.assignments ++ [(⟨k, i⟩, bound)] ∧
      (f.adapter = none → f.get r = .ok (FieldMapping.trimmed f.column bound) ∧
        (f.get r = .ok bound ↔ ¬ f.column.Cuts bound)) ∧
      (∀ adapter, f.adapter = some adapter →
        (f.get r = .ok bound ↔
          (adapter.toColumn raw).map (FieldMapping.trimmed f.column) = .ok bound)) := by
  obtain ⟨raw, bound, hraw, hbound, hassignments⟩ :=
    exists_assignment_of_set hfield (columnAt?_field ha hm hf) h
  refine ⟨raw, bound, hraw, hbound, hassignments, fun hadapter => ?_, fun adapter hadapter => ?_⟩
  · have hget := FieldMapping.get_eq_trimmed hraw hadapter hbound
    refine ⟨hget, ?_⟩
    rw [hget, Except.ok.injEq, FieldMapping.trimmed_eq_iff]
  · rw [FieldMapping.get_eq_adapted hraw hadapter]

/-- Texts are stored in capitals. -/
def shoutAdapter : Adapter where
  sqlType := .varchar
  toColumn
    | .text s => .ok (.text (Text.upper s))
    | v => .ok v
  fromColumn
    | .text s => .ok (.text (Text.lower s))
    | v => .ok v

def tagId : FieldMapping where
  column :=
    { name := "id", fieldName := "id", sqlType := .bigInt, primaryKey := true, isByValue := true }
  slot := ["id"]
  type := .scalar .int64

def tagCode : FieldMapping where
  column :=
    { name := "code", fieldName := "code", sqlType := .varchar, length := some 3, trim := true }
  slot := ["code"]
  type := .scalar .string

def tagLabel : FieldMapping where
  column := { name := "label", fieldName := "label", sqlType := .varchar }
  slot := ["label"]
  type := .scalar .string
  adapter := some shoutAdapter

def tagModel : Model where
  id := 0
  typeName := "tags"
  initial := {}
  description :=
    .setting (.field
      { fieldName := "id", slot := ["id"], type := .scalar .int64, primaryKey := true }) <|
    .setting (.field
      { fieldName := "code", slot := ["code"], type := .scalar .string, length := some 3,
        trim := true }) <|
    .setting (.field
      { fieldName := "label", slot := ["label"], type := .scalar .string,
        adapter := some shoutAdapter }) .done

def tagMapping : Mapping where
  table :=
    { name := "tags", columns := [tagId.column, tagCode.column, tagLabel.column],
      primaryKey := ["id"] }
  fields := [tagId, tagCode, tagLabel]

theorem isSealed_tagMapping : tagMapping.IsSealed := ⟨tagMapping, "tags", rfl⟩

def tagAlias : Alias where
  id := 1
  model := tagModel
  mapping := tagMapping
  record :=
    ⟨[(["id"], .scalar (.int64 4)), (["code"], .scalar (.string (Numeral.ofNat 5))),
      (["label"], .scalar (.string (Numeral.ofNat 6)))]⟩
  registry :=
    { current :=
        [(.int 4, 0), (.identity (.field 1 ["code"]), 1), (.identity (.field 1 ["label"]), 2)]
      generation := 1 }

/-- A query over the alias, and a record to take contents from. -/
def tagQuery : Query where
  source := tagAlias

def tagRecord (code label : String) : Record :=
  ⟨[(["code"], .scalar (.string code)), (["label"], .scalar (.string label))]⟩

def tagSet (f : FieldMapping) (r : Record) : Query :=
  tagQuery.set (tagAlias.reference f.slot) (.content (r.get f.slot) .elsewhere)

/-- A code that fits is assigned as the record writes it. -/
theorem set_fittingCode_eq_get :
    tagQuery.sources[0]? = some tagAlias ∧ tagAlias.mapping.IsSealed ∧
      tagAlias.mapping.fields[1]? = some tagCode ∧
      tagQuery.resolve (tagAlias.reference tagCode.slot) = .ok (some ⟨0, 1⟩) ∧
      (tagSet tagCode (tagRecord "ab" "ann")).error = none ∧
      (tagSet tagCode (tagRecord "ab" "ann")).assignments = [(⟨0, 1⟩, .text "ab")] ∧
      tagCode.get (tagRecord "ab" "ann") = .ok (.text "ab") := by
  have haccepted : (tagSet tagCode (tagRecord "ab" "ann")).error = none := rfl
  have hassigned : (tagSet tagCode (tagRecord "ab" "ann")).assignments =
      [(⟨0, 1⟩, .text "ab")] := rfl
  refine ⟨rfl, isSealed_tagMapping, rfl, rfl, haccepted, hassigned, ?_⟩
  obtain ⟨raw, bound, -, -, hbound, hplain, -⟩ :=
    set_eq_get_iff (q := tagQuery) (a := tagAlias) (k := 0) (i := 1) (f := tagCode) rfl
      isSealed_tagMapping rfl rfl haccepted
  obtain rfl : .text "ab" = bound := by
    simpa [tagQuery] using hassigned.symm.trans hbound
  exact (hplain rfl).2.mpr ((FieldMapping.trimmed_eq_iff _ _).mp rfl)

/-- A longer code is assigned uncut, and a label is assigned without its adapter; the record writes
both otherwise. -/
theorem set_longCode_ne_get :
    (Program.run [.create tagModel]).aliases = [(tagAlias, true)] ∧
      tagQuery.sources[0]? = some tagAlias ∧ tagAlias.mapping.IsSealed ∧
      tagAlias.mapping.fields[1]? = some tagCode ∧ tagAlias.mapping.fields[2]? = some tagLabel ∧
      (tagSet tagCode (tagRecord "abcdef" "ann")).error = none ∧
      (tagSet tagCode (tagRecord "abcdef" "ann")).assignments = [(⟨0, 1⟩, .text "abcdef")] ∧
      tagCode.get (tagRecord "abcdef" "ann") = .ok (.text "abc") ∧
      (tagSet tagLabel (tagRecord "abcdef" "ann")).error = none ∧
      (tagSet tagLabel (tagRecord "abcdef" "ann")).assignments = [(⟨0, 2⟩, .text "ann")] ∧
      tagLabel.get (tagRecord "abcdef" "ann") = .ok (.text "ANN") :=
  ⟨rfl, rfl, isSealed_tagMapping, rfl, rfl, rfl, rfl, rfl, rfl, rfl, rfl⟩

end Query

end RecordMapper
