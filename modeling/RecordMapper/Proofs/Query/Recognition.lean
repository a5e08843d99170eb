import RecordMapper.Proofs.Query.Handle

/-!
# Contents that are recognised as columns

A content denotes a column of a query if one of the aliases knows its key; this is so for every
field of an alias whose latest filling has succeeded. Where it is resolved, such a content stands
as the column, and the query is the same as with a handle, which carries no content at all; a
content that was known to an alias before its latest filling, and is known to none now, is refused.
What is assigned is not resolved, and so is bound as a value even where it is a field of an alias.
-/

set_option autoImplicit false

namespace RecordMapper

theorem Alias.mem_keys_of_filled {a : Alias} (h : a.IsFilled) {f : FieldMapping}
    (hf : f ∈ a.mapping.fields) : a.key f.slot ∈ a.keys :=
  h.mem_keys f hf

/-- What was known before a filling and is not known behind it is refused from then on. -/
theorem Alias.lookup_refill_eq_retired {old : Alias} {counter : UInt32} {key : Key}
    (hok : (old.refill counter).2.2 = .ok ()) (hold : key ∈ old.keys)
    (hnew : key ∉ (old.refill counter).1.keys) :
    (old.refill counter).1.registry.lookup key = .retired := by
  obtain ⟨r, -, hg⟩ := Registry.generate_of_ok hok
  have hregistry : (old.refill counter).1.registry = old.registry.succeed r.keys :=
    congrArg Generation.registry hg
  rw [Alias.keys, hregistry] at hnew
  rw [hregistry]
  apply (Registry.lookup_eq_retired_iff _ key).mpr
  refine ⟨?_, hnew⟩
  rw [Registry.retired_succeed, List.mem_filter]
  exact ⟨hold, decide_eq_true hnew⟩

namespace Query

variable {q : Query} {arg : Argument} {p : ColumnPosition} {v : FieldValue} {place : Place}
  {acts : List Act}

/-- One of the aliases knows the key. -/
def Knows (q : Query) (key : Key) : Prop := ∃ a ∈ q.sources, key ∈ a.keys

theorem lookups_content (q : Query) (v : FieldValue) (place : Place) :
    q.lookups (.content v place) = q.sources.map (·.registry.lookup (v.key place)) := rfl

theorem knows_iff :
    q.Knows (v.key place) ↔ ∃ p, q.resolve (.content v place) = .ok (some p) := by
  constructor
  · rintro ⟨a, ha, hkey⟩
    obtain ⟨i, hi⟩ := (Registry.exists_lookup_eq_current_iff _ _).mpr hkey
    obtain ⟨k, hk⟩ := List.getElem?_of_mem ha
    have hlookup : (q.lookups (.content v place))[k]? = some (.current i) := by
      rw [lookups_content, List.getElem?_map, hk, Option.map_some, hi]
    obtain ⟨p, hp, -⟩ := exists_firstCurrent? 0 hlookup
    exact ⟨p, resolve_of_firstCurrent? hp⟩
  · rintro ⟨p, hp⟩
    obtain ⟨k, -, hk, -⟩ := (firstCurrent?_eq_some_iff 0 _ _).mp (firstCurrent?_of_resolve hp)
    rw [lookups_content, List.getElem?_map] at hk
    obtain ⟨a, ha, hlookup⟩ := Option.map_eq_some_iff.mp hk
    refine ⟨a, List.mem_of_getElem? ha, ?_⟩
    exact (Registry.exists_lookup_eq_current_iff _ _).mp ⟨_, hlookup⟩

/-- A content that no alias knows, but one of them has known before, is refused. -/
theorem resolve_eq_stale (hunknown : ¬ q.Knows (v.key place)) {a : Alias} (ha : a ∈ q.sources)
    (hretired : a.registry.lookup (v.key place) = .retired) :
    q.resolve (.content v place) = .error (.unmappedField (.stale "value")) := by
  have hfirst : firstCurrent? 0 (q.lookups (.content v place)) = none := by
    cases h : firstCurrent? 0 (q.lookups (.content v place)) with
    | none => rfl
    | some p => exact absurd (knows_iff.mpr ⟨p, resolve_of_firstCurrent? h⟩) hunknown
  have hcontains : (q.lookups (.content v place)).contains .retired = true := by
    rw [List.contains_iff_mem, lookups_content]
    exact List.mem_map.mpr ⟨a, ha, hretired⟩
  simp only [resolve, hfirst, hcontains, if_true]

/-- What an argument denotes can be denoted by a handle as well. -/
theorem exists_handle (hq : q.IsWithin (Program.run acts)) (h : q.resolve arg = .ok (some p)) :
    ∃ c, q.resolve (.column c) = .ok (some p) := by
  obtain ⟨k, hk, hlookup, hbefore⟩ :=
    (firstCurrent?_eq_some_iff 0 _ _).mp (firstCurrent?_of_resolve h)
  rw [Nat.zero_add] at hk
  rw [lookups, List.getElem?_map] at hlookup
  obtain ⟨a, ha, hlookup⟩ := Option.map_eq_some_iff.mp hlookup
  obtain ⟨complete, hmem⟩ := hq a (List.mem_of_getElem? ha)
  have hcoherent : a.mapping.Coherent := (Program.coherent_run acts).aliases _ hmem
  obtain ⟨f, hf⟩ : ∃ f, a.mapping.fields[p.column]? = some f := by
    have hmade : a.IsMade := ⟨acts, complete, hmem⟩
    have hlt := hmade.lt_of_lookup hlookup
    rw [Alias.table, hcoherent.columns, List.length_map] at hlt
    exact ⟨_, List.getElem?_eq_getElem hlt⟩
  have hplace : q.place? a.id = some k := by
    obtain ⟨hlt, rfl⟩ := List.getElem?_eq_some_iff.mp ha
    apply List.findIdx?_eq_some_iff_getElem.mpr
    refine ⟨hlt, decide_eq_true rfl, ?_⟩
    intro j hj hsame
    -- a table before of the same alias would have answered
    have hj' : j < q.sources.length := Nat.lt_trans hj hlt
    obtain ⟨complete', hother⟩ := hq _ (List.getElem_mem hj')
    have heq := List.inj_on_of_nodup_map (Program.sound_run acts).nodup hother hmem
      (of_decide_eq_true hsame)
    apply hbefore j p.column hj
    rw [lookups, List.getElem?_map, List.getElem?_eq_getElem hj', Option.map_some,
      (Prod.mk.inj heq).1, hlookup]
  have hwithin : q.IsWithin (Program.run (acts ++ [])) := (List.append_nil acts).symm ▸ hq
  have hhandle := resolve_handle hmem hf hwithin
  rw [hplace] at hhandle
  refine ⟨_, hhandle.trans ?_⟩
  rw [← hk]

end Query

/-- Of the contents that are handed to a query over aliases of a program, exactly those stand as
columns that one of the aliases knows, and at all places but that of the value which is assigned.
Every field of an alias that has been filled is known. A content that stands as a column leaves
the query as a handle of the column would, so nothing of it is bound. One that an alias has known
before its latest filling, and none knows any more, is refused; all others are bound as values. -/
theorem Role.stands_as_column_iff {acts : List Act} {r : Role} {q : Query}
    (hq : (r.scope q).IsWithin (Program.run acts)) (v : FieldValue) (place : Place) :
    let arg := Argument.content v place
    let known := (r.scope q).Knows (v.key place)
    (∀ a ∈ (r.scope q).sources, (a, true) ∈ (Program.run acts).aliases →
      ∀ f ∈ a.mapping.fields, arg = a.reference f.slot → known) ∧
    (r.Resolves → known → ∃ p c, (r.scope q).Has p ∧ r.Takes q arg p ∧ r.Takes q (.column c) p ∧
      q.apply (r.call arg) = q.apply (r.call (.column c))) ∧
    (r.Resolves → ¬ known → ∀ (old : Alias) (counter : UInt32), (old.refill counter).2.2 = .ok () →
      (old.refill counter).1 ∈ (r.scope q).sources → v.key place ∈ old.keys →
        r.Refuses q arg (.stale "value")) ∧
    (q.failure? (r.call arg) = none →
      ((∃ p, r.held? (q.apply (r.call arg)) = some (.column p)) ↔ r.Resolves ∧ known) ∧
      ((∃ w, r.held? (q.apply (r.call arg)) = some (.value w)) ↔ ¬ (r.Resolves ∧ known))) := by
  intro arg known
  refine ⟨?_, ?_, ?_, ?_⟩
  · intro a ha hfilled f hf harg
    have hkey : v.key place = a.key f.slot := by
      injection harg with hv hplace
      rw [hv, hplace]
      rfl
    refine ⟨a, ha, ?_⟩
    rw [hkey]
    exact Alias.mem_keys_of_filled ((Program.sound_run acts).filled a hfilled) hf
  · intro hr hknown
    obtain ⟨p, hp⟩ := Query.knows_iff.mp hknown
    obtain ⟨c, hc⟩ := Query.exists_handle hq hp
    have hmade : ∀ a ∈ (r.scope q).sources, a.IsMade := by
      intro a ha
      obtain ⟨complete, hmem⟩ := hq a ha
      exact ⟨acts, complete, hmem⟩
    have htakes := takes_of_resolve hr hp
    exact ⟨p, c, Query.has_of_resolve hmade hp, htakes, takes_of_resolve hr hc, (htakes.same _ hc).1⟩
  · intro hr hunknown old counter hok hsource hold
    apply refuses_of_resolve hr
    apply Query.resolve_eq_stale hunknown hsource
    exact Alias.lookup_refill_eq_retired hok hold fun hnew => hunknown ⟨_, hsource, hnew⟩
  · intro haccepted
    have hvalue (w : Value) (h : r.held? (q.apply (r.call arg)) = some (.value w)) :
        ¬ ∃ p, r.held? (q.apply (r.call arg)) = some (.column p) := by
      rintro ⟨p, hp⟩
      rw [h] at hp
      cases hp
    by_cases hr : r.Resolves
    · rcases held?_of_accepted hr haccepted with ⟨p, hheld, hp⟩ | ⟨w, hheld, hnone⟩
      · have hknown : known := Query.knows_iff.mpr ⟨p, hp⟩
        refine ⟨iff_of_true ⟨p, hheld⟩ ⟨hr, hknown⟩, iff_of_false ?_ fun h => h ⟨hr, hknown⟩⟩
        rintro ⟨w, hw⟩
        exact hvalue w hw ⟨p, hheld⟩
      · have hunknown : ¬ (r.Resolves ∧ known) := by
          rintro ⟨-, hknown⟩
          obtain ⟨p, hp⟩ := Query.knows_iff.mp hknown
          rw [hnone] at hp
          cases hp
        exact ⟨iff_of_false (hvalue w hheld) hunknown, iff_of_true ⟨w, hheld⟩ hunknown⟩
    · obtain ⟨w, hheld⟩ : ∃ w, r.held? (q.apply (r.call arg)) = some (.value w) := by
        cases r with
        | written field => exact held?_of_written haccepted
        | condition | grouped | ordered | assigned => exact absurd trivial hr
      have hunresolved : ¬ (r.Resolves ∧ known) := fun h => hr h.1
      exact ⟨iff_of_false (hvalue w hheld) hunresolved, iff_of_true ⟨w, hheld⟩ hunresolved⟩

namespace Query

def tagAnew : Alias :=
  { tagAlias with
    record :=
      ⟨[(["id"], .scalar (.int64 7)), (["code"], .scalar (.string (Numeral.ofNat 8))),
        (["label"], .scalar (.string (Numeral.ofNat 9)))]⟩
    registry :=
      { current :=
          [(.int 7, 0), (.identity (.field 1 ["code"]), 1), (.identity (.field 1 ["label"]), 2)]
        retired := [.int 4]
        generation := 2 } }

def tagAnewQuery : Query where
  source := tagAnew

def tagAnewActs : List Act := [.create tagModel, .refill 0]

theorem aliases_tagAnewActs : (Program.run tagAnewActs).aliases = [(tagAnew, true)] := by
  have hcreated : (Program.run [.create tagModel]).aliases = [(tagAlias, true)] := rfl
  have hcounter : (Program.run [.create tagModel]).workspace.counter = 7 := rfl
  have hrun : Program.run tagAnewActs = (Program.run [.create tagModel]).refill 0 := rfl
  rw [hrun]
  simp only [Program.refill, hcreated, Workspace.refill, hcounter]
  rfl

/-- The number that stood for the field `id` before the second filling. -/
def tagStale : FieldValue := .scalar (.int64 4)

theorem refill_tagAlias : (tagAlias.refill 7).1 = tagAnew := rfl

theorem mem_keys_tagStale : tagStale.key .elsewhere ∈ tagAlias.keys := by decide

theorem not_knows_tagStale : ¬ tagAnewQuery.Knows (tagStale.key .elsewhere) := by
  have hkey : tagStale.key .elsewhere ∉ tagAnew.keys := by decide
  rintro ⟨a, ha, hknown⟩
  obtain rfl := List.mem_singleton.mp ha
  exact hkey hknown

/-- The upper bound of a range that begins at 1. -/
def tagRange : Role :=
  .condition (.filter .or) (.high (tagAnew.reference tagId.slot) (.value (.int64 1)))

/-- As the bound of a range the field stands as a column, and its number of before is refused. -/
theorem stands_as_column_tag :
    tagAnewQuery.IsWithin (Program.run tagAnewActs) ∧
      (∃ p, tagRange.held? (tagAnewQuery.apply (tagRange.call (tagAnew.reference tagId.slot))) =
        some (.column p)) ∧
      (tagAlias.refill 7).1 = tagAnew ∧ tagStale.key .elsewhere ∈ tagAlias.keys ∧
      ¬ tagAnewQuery.Knows (tagStale.key .elsewhere) ∧
      tagRange.Refuses tagAnewQuery (.content tagStale .elsewhere) (.stale "value") := by
  have hwithin : tagAnewQuery.IsWithin (Program.run tagAnewActs) := by
    intro a ha
    obtain rfl := List.mem_singleton.mp ha
    rw [aliases_tagAnewActs]
    exact ⟨true, List.mem_cons_self⟩
  have hsource : tagAnew ∈ tagAnewQuery.sources := List.mem_cons_self
  obtain ⟨hknown, -, -, hstands⟩ := Role.stands_as_column_iff (r := tagRange) hwithin
    (tagAnew.record.get tagId.slot) (.field 1 tagId.slot)
  obtain ⟨-, -, hrefuses, -⟩ := Role.stands_as_column_iff (r := tagRange) hwithin tagStale .elsewhere
  have hfield := hknown tagAnew hsource
    (aliases_tagAnewActs ▸ List.mem_cons_self) tagId List.mem_cons_self rfl
  exact ⟨hwithin, (hstands rfl).1.mpr ⟨trivial, hfield⟩, refill_tagAlias, mem_keys_tagStale,
    not_knows_tagStale, hrefuses trivial not_knows_tagStale tagAlias 7 rfl hsource mem_keys_tagStale⟩

def tagUpdate (column : String) (v : Value) : Statement where
  body := Sql.text "UPDATE \"tags\" SET " ++ (Sql.text (column ++ " = ") ++ Sql.param v)

/-- Assigned, a field is bound with the text that stands for it, and so is a number that stood for
a field before. -/
theorem written_field_is_bound :
    (Program.run tagAnewActs).aliases = [(tagAnew, true)] ∧ tagLabel ∈ tagAnew.mapping.fields ∧
      (tagAlias.refill 7).1 = tagAnew ∧ tagStale.key .elsewhere ∈ tagAlias.keys ∧
      ¬ tagAnewQuery.Knows (tagStale.key .elsewhere) ∧
      (∃ s, (tagAnewQuery.set (tagAnew.reference tagCode.slot)
          (tagAnew.reference tagLabel.slot)).answer .update (.ofProduct .sqlite .zero) = .ok s ∧
        s.sql = "UPDATE \"tags\" SET \"code\" = ?" ∧ s.params = [.text "9"]) ∧
      ∃ s, (tagAnewQuery.set (tagAnew.reference tagId.slot)
          (.content tagStale .elsewhere)).answer .update (.ofProduct .sqlite .zero) = .ok s ∧
        s.sql = "UPDATE \"tags\" SET \"id\" = ?" ∧ s.params = [.int64 4] := by
  refine ⟨aliases_tagAnewActs, ?_, refill_tagAlias, mem_keys_tagStale, not_knows_tagStale,
    ⟨tagUpdate "\"code\"" (.text "9"), ?_, ?_, ?_⟩, ⟨tagUpdate "\"id\"" (.int64 4), ?_, ?_, ?_⟩⟩
  · exact List.mem_cons_of_mem _ (List.mem_cons_of_mem _ List.mem_cons_self)
  · exact Result.eq_ok_of_toOption_eq_some (by decide +kernel)
  · decide
  · decide
  · exact Result.eq_ok_of_toOption_eq_some (by decide)
  · decide
  · decide

end Query

end RecordMapper
