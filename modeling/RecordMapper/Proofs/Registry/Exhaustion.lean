import RecordMapper.Proofs.Calendar.Millisecond
import RecordMapper.Proofs.Registry.Redraws
import RecordMapper.Proofs.Table.Styles

/-!
# Sentinels for every value of the counter

Most kinds of values have a sentinel wherever the counter stands: narrow integers drop its leading
bits, a time takes it modulo the seconds of a day, and the timestamps go on beyond the last second
that it can count. Only the dates end before the counter does. Where a date stands among the fields
of a record, filling the record and describing its model fail from some value of the counter on,
and begin to succeed again when the counter has begun anew.
-/

set_option autoImplicit false

namespace RecordMapper

namespace Sentinel
variable {seq : UInt32}

/-- The last day that is a date, counted as the counter is. -/
def lastDay : Nat := 95026236

/-- What is reported of a date behind the last one. -/
def noDate : Error := .noSentinel "date" .counterOutOfRange

theorem exists_dateFor (h : seq.toNat ≤ lastDay) : ∃ d, dateFor seq = .ok d := by
  have hday : ∃ d, Calendar.Date.ofDay? (seq.toNat : Int) = some d := by
    apply Calendar.Date.exists_ofDay?_iff.mpr
    unfold lastDay at h
    omega
  obtain ⟨d, hd⟩ := hday
  exact ⟨d, by rw [dateFor, hd]⟩

theorem dateFor_of_lt (h : lastDay < seq.toNat) : dateFor seq = .error noDate := by
  unfold dateFor
  split
  · next d hd =>
    have hday := Calendar.Date.exists_ofDay?_iff.mp ⟨d, hd⟩
    unfold lastDay at h
    omega
  · rfl

/-- The counter ends in the year 2106. -/
theorem exists_timestampFor (seq : UInt32) : ∃ t, timestampFor seq = .ok t := by
  have hmillis : ∃ t, Calendar.Timestamp.ofMillis? (seq.toNat * 1000 : Int) = some t := by
    apply Calendar.Timestamp.exists_ofMillis?_iff.mpr
    have hlt := seq.toNat_lt
    omega
  obtain ⟨t, ht⟩ := hmillis
  exact ⟨t, by rw [timestampFor, ht]⟩

theorem exists_valueFor {type : ValueType} (hnull : type ≠ .null)
    (hdate : type = .date → seq.toNat ≤ lastDay) : ∃ v, valueFor type seq = .ok v := by
  cases type with
  | null => exact absurd rfl hnull
  | date =>
    obtain ⟨d, hd⟩ := exists_dateFor (hdate rfl)
    exact ⟨.date d, by rw [valueFor, hd]; rfl⟩
  | timestamp =>
    obtain ⟨t, ht⟩ := exists_timestampFor seq
    exact ⟨.timestamp t, by rw [valueFor, ht]; rfl⟩
  | _ => exact ⟨_, rfl⟩

theorem valueFor_date_of_lt (h : lastDay < seq.toNat) : valueFor .date seq = .error noDate := by
  rw [valueFor, dateFor_of_lt h]
  rfl

end Sentinel

namespace FieldType
variable {type : FieldType} {seq : UInt32} {e : Error}

def isDated : FieldType → Bool
  | scalar type => type = .date
  | optional type => type.isDated
  | enumeration _ | wrapped _ => false

/-- Whether a type has sentinels at all: an enumeration needs a member, and a type wrapped around
a built-in one has to say what serves as sentinel. -/
def hasSentinel : FieldType → Bool
  | scalar _ => true
  | optional type => type.hasSentinel
  | enumeration e => 0 < e.members.length
  | wrapped w => w.sentinel.isSome

theorem exists_sentinel (h : type.hasSentinel = true)
    (hdate : type.isDated = true → seq.toNat ≤ Sentinel.lastDay) :
    ∃ v, type.sentinel seq = .ok v := by
  induction type with
  | scalar type =>
    cases type with
    | date =>
      obtain ⟨d, hd⟩ := Sentinel.exists_dateFor (hdate rfl)
      exact ⟨.scalar (.date d), by rw [sentinel, ScalarType.sentinel, hd]; rfl⟩
    | timestamp =>
      obtain ⟨t, ht⟩ := Sentinel.exists_timestampFor seq
      exact ⟨.scalar (.timestamp t), by rw [sentinel, ScalarType.sentinel, ht]; rfl⟩
    | _ => exact ⟨_, rfl⟩
  | enumeration e =>
    have hmember : 0 < e.members.length := of_decide_eq_true h
    exact ⟨.member e ⟨0, hmember⟩, by rw [sentinel, dif_pos hmember]⟩
  | wrapped w =>
    obtain ⟨s, hs⟩ := Option.isSome_iff_exists.mp h
    exact ⟨.wrapped w s, by rw [sentinel, hs]⟩
  | optional type ih =>
    obtain ⟨v, hv⟩ := ih h hdate
    exact ⟨.present v, by rw [sentinel, hv]; rfl⟩

theorem sentinel_of_isDated (hdate : type.isDated = true) (h : Sentinel.lastDay < seq.toNat) :
    type.sentinel seq = .error Sentinel.noDate := by
  induction type with
  | scalar type =>
    obtain rfl : type = .date := of_decide_eq_true hdate
    rw [sentinel, ScalarType.sentinel, Sentinel.dateFor_of_lt h]
    rfl
  | optional type ih =>
    rw [sentinel, ih hdate]
    rfl
  | enumeration | wrapped => cases hdate

/-- A type that has sentinels is without one only behind the last date. -/
theorem of_sentinel_eq_error (h : type.hasSentinel = true) (he : type.sentinel seq = .error e) :
    type.isDated = true ∧ Sentinel.lastDay < seq.toNat ∧ e = Sentinel.noDate := by
  by_cases hpast : type.isDated = true ∧ Sentinel.lastDay < seq.toNat
  · obtain ⟨hdate, hlt⟩ := hpast
    rw [sentinel_of_isDated hdate hlt] at he
    exact ⟨hdate, hlt, (Except.error.inj he).symm⟩
  · have hbefore : type.isDated = true → seq.toNat ≤ Sentinel.lastDay := by
      intro hdate
      by_contra hlt
      exact hpast ⟨hdate, Nat.lt_of_not_le hlt⟩
    obtain ⟨v, hv⟩ := exists_sentinel h hbefore
    rw [hv] at he
    cases he

theorem hasKeyByValue_of_isDated (h : type.isDated = true) : type.hasKeyByValue = false := by
  cases type with
  | scalar type =>
    obtain rfl : type = .date := of_decide_eq_true h
    rfl
  | optional type => rfl
  | enumeration | wrapped => cases h

end FieldType

/-- A date stands where the counter has passed the last day: the fields take consecutive values
of the counter, and a date never takes another one. -/
def IsPast (fields : List FieldMapping) (seq : UInt32) : Prop :=
  ∃ k f, fields[k]? = some f ∧ f.type.isDated = true ∧
    Sentinel.lastDay < (Sentinel.advance seq k).toNat

theorem isPast_cons {f : FieldMapping} {rest : List FieldMapping} {seq : UInt32} :
    IsPast (f :: rest) seq ↔
      f.type.isDated = true ∧ Sentinel.lastDay < seq.toNat ∨ IsPast rest (seq + 1) := by
  have hnext (k : Nat) : Sentinel.advance seq (k + 1) = Sentinel.advance (seq + 1) k := by
    rw [Nat.add_comm k 1, ← Sentinel.advance_advance]
    rfl
  constructor
  · rintro ⟨k, g, hg, hdate, hlt⟩
    cases k with
    | zero =>
      obtain rfl := Option.some.inj hg
      rw [Sentinel.advance_zero] at hlt
      exact .inl ⟨hdate, hlt⟩
    | succ k =>
      rw [hnext] at hlt
      exact .inr ⟨k, g, hg, hdate, hlt⟩
  · rintro (⟨hdate, hlt⟩ | ⟨k, g, hg, hdate, hlt⟩)
    · refine ⟨0, f, rfl, hdate, ?_⟩
      rwa [Sentinel.advance_zero]
    · refine ⟨k + 1, g, hg, hdate, ?_⟩
      rwa [hnext]

namespace Refill
variable {owner : Nat} {fields : List FieldMapping} {i : Nat} {seq : UInt32} {r s : Refill}
  {e : Error}

theorem isByValue_of_redraw {f : FieldMapping} {fuel : Nat} {key : Key}
    (h : redraw owner f fuel r key = (s, .error e)) : key.isByValue = true := by
  by_contra hvalue
  have hfree : redraw owner f fuel r key = (r, .ok key) :=
    (redraw_of_free (by rw [Bool.eq_false_of_not_eq_true hvalue, Bool.false_and])).1
  rw [hfree] at h
  cases (Prod.mk.inj h).2

/-- A date is recognised by place and never drawn again, so only distinct values are missing. -/
theorem of_redraw_eq_error {f : FieldMapping} {fuel : Nat} {origin : Refill} {key : Key}
    (hf : f.type.hasSentinel = true) (hr : Assigned owner f origin r key)
    (h : redraw owner f fuel r key = (s, .error e)) :
    f.type.hasKeyByValue = true ∧ e = .noSentinel f.column.fieldName .noDistinctValue := by
  have hvalue : f.type.hasKeyByValue = true := by
    obtain ⟨drawn, hdrawn⟩ := hr.sentinel
    rw [← FieldType.isByValue_key_of_sentinel hdrawn (r.record.place owner f.slot), ← Record.key,
      hr.key_self]
    exact isByValue_of_redraw h
  refine ⟨hvalue, ?_⟩
  cases (refuses_of_redraw hr h).2 with
  | noSentinel hno =>
    have hdate := (FieldType.of_sentinel_eq_error hf hno).1
    rw [FieldType.hasKeyByValue_of_isDated hdate] at hvalue
    cases hvalue
  | noDistinctValue => rfl

/-- A filling fails at a date behind the last day or at a field for which no distinct value is
found. Such a field is recognised by value, and it does not occur where there is room for all
keys. -/
theorem of_fill_eq_error (hsentinel : ∀ f ∈ fields, f.type.hasSentinel = true)
    (h : fill owner fields i seq r = (s, .error e)) :
    IsPast fields seq ∧ e = Sentinel.noDate ∨
      ∃ f ∈ fields, f.type.hasKeyByValue = true ∧
        e = .noSentinel f.column.fieldName .noDistinctValue ∧
        ¬ (Room fields (r.keys.map (·.1)) ∧ ∀ g ∈ fields, g.type.IsSettled) := by
  induction fields generalizing i seq r with
  | nil => simp [fill] at h
  | cons f rest ih =>
    have hf := hsentinel f List.mem_cons_self
    unfold fill at h
    split at h
    · next hassign =>
      obtain ⟨rfl, he⟩ := Prod.mk.inj h
      obtain rfl := Except.error.inj he
      obtain ⟨hdate, hlt, he⟩ := FieldType.of_sentinel_eq_error hf
        (sentinel_of_assign_eq_error hassign)
      exact .inl ⟨isPast_cons.mpr (.inl ⟨hdate, hlt⟩), he⟩
    · next assigned key hassign =>
      have hfirst := assigned_of_assign hassign rfl rfl fun _ _ => rfl
      split at h
      · next hredraw =>
        obtain ⟨rfl, he⟩ := Prod.mk.inj h
        obtain rfl := Except.error.inj he
        obtain ⟨hvalue, he⟩ := of_redraw_eq_error hf hfirst hredraw
        refine .inr ⟨f, List.mem_cons_self, hvalue, he, ?_⟩
        rintro ⟨hroom, hsettled⟩
        obtain ⟨-, settled, last, hok⟩ := hroom.settles (hsettled f List.mem_cons_self) hassign
        rw [hredraw] at hok
        cases (Prod.mk.inj hok).2
      · next settled last hredraw =>
        have hassigned := (assigned_of_redraw hfirst hredraw).1
        rcases ih (fun g hg => hsentinel g (List.mem_cons_of_mem f hg)) h with
          ⟨hpast, he⟩ | ⟨g, hg, hvalue, he, hfull⟩
        · exact .inl ⟨isPast_cons.mpr (.inr hpast), he⟩
        · refine .inr ⟨g, List.mem_cons_of_mem f hg, hvalue, he, ?_⟩
          rintro ⟨hroom, hsettled⟩
          apply hfull
          exact ⟨hroom.enter (hsettled f List.mem_cons_self) hassigned i,
            fun g hg => hsettled g (List.mem_cons_of_mem f hg)⟩

theorem not_isPast_of_fill (h : fill owner fields i seq r = (s, .ok ())) :
    ¬ IsPast fields seq := by
  induction fields generalizing i seq r with
  | nil =>
    rintro ⟨k, f, hf, -⟩
    simp at hf
  | cons f rest ih =>
    unfold fill at h
    split at h
    · cases (Prod.mk.inj h).2
    · next hassign =>
      split at h
      · cases (Prod.mk.inj h).2
      · rw [isPast_cons]
        rintro (⟨hdate, hlt⟩ | hpast)
        · have hsentinel := (drawn_of_assign hassign).2
          rw [FieldType.sentinel_of_isDated hdate hlt] at hsentinel
          cases hsentinel
        · exact ih h hpast

end Refill

namespace Registry
variable {g : Registry} {owner : Nat} {fields : List FieldMapping} {record : Record}
  {counter : UInt32} {e : Error}

/-- Whatever the counter, the sentinels of the fields can be told apart: there are up to 256
integers and up to one truth value, and the other fields are recognised by place. -/
structure Sparse (fields : List FieldMapping) : Prop where
  room : Refill.Room fields []
  settled : ∀ f ∈ fields, f.type.IsSettled

theorem of_generate_eq_error (hsentinel : ∀ f ∈ fields, f.type.hasSentinel = true)
    (h : (g.generate owner fields record counter).outcome = .error e) :
    IsPast fields counter ∧ e = Sentinel.noDate ∨
      ¬ Sparse fields ∧ ∃ f ∈ fields, f.type.hasKeyByValue = true ∧
        e = .noSentinel f.column.fieldName .noDistinctValue := by
  obtain ⟨r, hfill, -⟩ := generate_of_error h
  rcases Refill.of_fill_eq_error hsentinel hfill with hpast | ⟨f, hf, hvalue, he, hfull⟩
  · exact .inl hpast
  · refine .inr ⟨?_, f, hf, hvalue, he⟩
    intro hsparse
    exact hfull ⟨hsparse.room, hsparse.settled⟩

theorem not_isPast_of_generate (h : (g.generate owner fields record counter).outcome = .ok ()) :
    ¬ IsPast fields counter := by
  obtain ⟨r, hfill, -⟩ := generate_of_ok h
  exact Refill.not_isPast_of_fill hfill

theorem outcome_of_not_isPast (hsentinel : ∀ f ∈ fields, f.type.hasSentinel = true)
    (hsparse : Sparse fields) (hpast : ¬ IsPast fields counter) :
    (g.generate owner fields record counter).outcome = .ok () := by
  cases houtcome : (g.generate owner fields record counter).outcome with
  | ok => rfl
  | error e =>
    rcases of_generate_eq_error hsentinel houtcome with ⟨hdate, -⟩ | ⟨hfull, -⟩
    · exact absurd hdate hpast
    · exact absurd hsparse hfull

end Registry

theorem RefinementScope.exists_fault_of_position {s : RefinementScope} {m : Mapping}
    {r : Reference} {e : Error} (h : s.position m r = .error e) : ∃ fault, e = .unmappedField fault := by
  unfold position at h
  split at h
  · exact ⟨_, (Except.error.inj h).symm⟩
  · split at h
    · cases h
    · exact ⟨_, (Except.error.inj h).symm⟩
    · exact ⟨_, (Except.error.inj h).symm⟩

theorem RefinementScope.exists_fault_of_apply {s : RefinementScope} {m : Mapping}
    {r : Refinement} {e : Error} (h : s.apply m r = .error e) : ∃ fault, e = .unmappedField fault := by
  have hcolumn {field : Reference} {change : Column → Column}
      (h : s.changeColumn m field change = .error e) : ∃ fault, e = .unmappedField fault :=
    exists_fault_of_position (Result.map_eq_error_iff.mp h)
  have hnames {fields : List Reference} (h : s.columnNames m fields = .error e) :
      ∃ fault, e = .unmappedField fault := by
    obtain ⟨r, -, hr⟩ := Result.exists_of_mapM_eq_error h
    exact exists_fault_of_position (Result.map_eq_error_iff.mp hr)
  cases r with
  | tableName | schemaName | version | memoryTable | createIfMissing => cases h
  | primaryKey | index => exact hnames (Result.map_eq_error_iff.mp h)
  | length | scale | trim | nullable | autoIncrement | columnName =>
    rw [apply] at h
    exact hcolumn h

theorem RefinementScope.exists_fault_of_foldlM {s : RefinementScope} {m : Mapping}
    {refinements : List Refinement} {e : Error} (h : refinements.foldlM s.apply m = .error e) :
    ∃ fault, e = .unmappedField fault := by
  induction refinements generalizing m with
  | nil => cases h
  | cons r rest ih =>
    rw [List.foldlM_cons] at h
    rcases Result.bind_eq_error_iff.mp h with hr | ⟨next, -, hrest⟩
    · exact exists_fault_of_apply hr
    · exact ih hrest

theorem Mapping.exists_fault_of_positions {m : Mapping} {missing : String → Error}
    {names : List String} {e : Error} (h : m.positions missing names = .error e) :
    ∃ name, e = missing name := by
  obtain ⟨name, -, hname⟩ := Result.exists_of_mapM_eq_error h
  split at hname
  · cases hname
  · exact ⟨name, (Except.error.inj hname).symm⟩

theorem Mapping.exists_fault_of_completeIndex {m : Mapping} {typeName : String} {index : Index}
    {n : Nat} {e : Error} (h : m.completeIndex typeName index n = .error e) :
    ∃ fault, e = .unsupportedModel typeName fault := by
  unfold completeIndex at h
  dsimp only at h
  split at h
  · exact ⟨_, (Except.error.inj h).symm⟩
  · rcases Result.bind_eq_error_iff.mp h with hmissing | ⟨positions, -, h⟩
    · obtain ⟨name, he⟩ := exists_fault_of_positions hmissing
      exact ⟨_, he⟩
    · cases h

theorem Mapping.exists_fault_of_sealed {m : Mapping} {typeName : String} {e : Error}
    (h : m.sealed typeName = .error e) : ∃ fault, e = .unsupportedModel typeName fault := by
  have hcompleted (h : m.completed typeName = .error e) :
      ∃ fault, e = .unsupportedModel typeName fault := by
    unfold completed at h
    rcases Result.bind_eq_error_iff.mp h with hmissing | ⟨positions, -, h⟩
    · obtain ⟨name, he⟩ := exists_fault_of_positions hmissing
      exact ⟨_, he⟩
    · rcases Result.bind_eq_error_iff.mp h with hindex | ⟨indexes, -, h⟩
      · obtain ⟨x, -, hx⟩ := Result.exists_of_mapM_eq_error hindex
        exact exists_fault_of_completeIndex hx
      · cases h
  rw [sealed_eq] at h
  split at h
  · exact ⟨_, (Except.error.inj h).symm⟩
  · split at h
    · exact ⟨_, (Except.error.inj h).symm⟩
    · split at h
      · split at h
        · exact ⟨_, (Except.error.inj h).symm⟩
        · exact hcompleted h
      · exact hcompleted h

/-- A description that comes as far as filling a record fails for want of a sentinel exactly if the
filling does; refinements and sealing have other reasons. -/
theorem Model.build_eq_noSentinel_iff {model : Model} {described : Mapping} {counter : UInt32}
    (h : (model.description.draft {}).finish model.typeName = .ok described)
    {subject : String} {fault : SentinelFault} :
    (model.build counter).1 = .error (.noSentinel subject fault) ↔
      (Registry.generate {} refinementOwner described.fields model.initial counter).outcome =
        .error (.noSentinel subject fault) := by
  unfold build refined
  rw [h]
  dsimp only
  constructor
  · intro herror
    rcases Result.bind_eq_error_iff.mp herror with hrefined | ⟨last, -, hsealed⟩
    · rcases Result.bind_eq_error_iff.mp hrefined with houtcome | ⟨-, -, happlied⟩
      · exact houtcome
      · obtain ⟨other, hother⟩ := RefinementScope.exists_fault_of_foldlM happlied
        cases hother
    · obtain ⟨other, hother⟩ := Mapping.exists_fault_of_sealed hsealed
      cases hother
  · intro houtcome
    exact Result.bind_eq_error_iff.mpr (.inl (Result.bind_eq_error_iff.mpr (.inl houtcome)))

/-- Each kind of values has a sentinel for each value of the counter, except for dates: they have
none behind the last day, and say so. A record whose types have sentinels is not filled when one of
its dates has come behind the last day. For no other reason does a filling fail, unless no distinct
value is found for a field that is recognised by value, which does not happen with up to 256
integers and one truth value; such a record is filled until its dates have come to their end. A
model that is described from such fields is refused for want of a sentinel exactly if its record
is not filled for that reason. -/
theorem sentinels_until_last_day (counter : UInt32) :
    (∀ type : ValueType, type ≠ .null →
      ((∃ v, Sentinel.valueFor type counter = .ok v) ↔
        (type = .date → counter.toNat ≤ Sentinel.lastDay))) ∧
    (Sentinel.lastDay < counter.toNat →
      Sentinel.valueFor .date counter = .error Sentinel.noDate) ∧
    (∀ (g : Registry) (owner : Nat) (fields : List FieldMapping) (record : Record),
      (∀ f ∈ fields, f.type.hasSentinel = true) →
      let outcome := (g.generate owner fields record counter).outcome
      (IsPast fields counter → outcome ≠ .ok ()) ∧
        (∀ e, outcome = .error e →
          IsPast fields counter ∧ e = Sentinel.noDate ∨
            ¬ Registry.Sparse fields ∧ ∃ f ∈ fields, f.type.hasKeyByValue = true ∧
              e = .noSentinel f.column.fieldName .noDistinctValue) ∧
        (Registry.Sparse fields → (outcome = .ok () ↔ ¬ IsPast fields counter))) ∧
    ∀ (model : Model) (described : Mapping),
      (model.description.draft {}).finish model.typeName = .ok described →
      ∀ (subject : String) (fault : SentinelFault),
        (model.build counter).1 = .error (.noSentinel subject fault) ↔
          (Registry.generate {} refinementOwner described.fields model.initial counter).outcome =
            .error (.noSentinel subject fault) := by
  refine ⟨fun type hnull => ⟨?_, Sentinel.exists_valueFor hnull⟩, Sentinel.valueFor_date_of_lt,
    fun g owner fields record hsentinel => ?_,
    fun model described h subject fault => Model.build_eq_noSentinel_iff h⟩
  · rintro ⟨v, hv⟩ rfl
    by_contra hlt
    rw [Sentinel.valueFor_date_of_lt (Nat.lt_of_not_le hlt)] at hv
    cases hv
  · intro outcome
    refine ⟨fun hpast hok => Registry.not_isPast_of_generate hok hpast,
      fun e => Registry.of_generate_eq_error hsentinel, fun hsparse => ?_⟩
    exact ⟨Registry.not_isPast_of_generate, Registry.outcome_of_not_isPast hsentinel hsparse⟩

def diaryModel : Model where
  id := 0
  typeName := "Diary"
  initial := {}
  description :=
    .setting (.field { fieldName := "page", slot := ["page"], type := .scalar .int32 }) <|
    .setting (.field { fieldName := "day", slot := ["day"], type := .optional (.scalar .date) }) .done

/-- The fields of the model, in the order in which they are filled. -/
def diaryFields : List FieldMapping :=
  [{ column := { name := "page", fieldName := "page", sqlType := .integer, isByValue := true }
     slot := ["page"], type := .scalar .int32 },
   { column := { name := "day", fieldName := "day", sqlType := .date, nullable := true }
     slot := ["day"], type := .optional (.scalar .date) }]

theorem sentinels_until_last_day_diary :
    (∃ v, Sentinel.valueFor .date 95026236 = .ok v) ∧
      (({} : Registry).generate 1 diaryFields {} 95026235).outcome = .ok () ∧
      (({} : Registry).generate 1 diaryFields {} 95026236).outcome ≠ .ok () := by
  obtain ⟨hvalue, -, hpast, -⟩ := sentinels_until_last_day 95026236
  obtain ⟨-, -, hfilled, -⟩ := sentinels_until_last_day 95026235
  have hsentinel : ∀ f ∈ diaryFields, f.type.hasSentinel = true := by decide
  have hsparse : Registry.Sparse diaryFields := by
    refine ⟨⟨by decide, by decide⟩, fun f hf => ?_⟩
    rcases List.mem_cons.mp hf with rfl | hf
    · exact .inl rfl
    · obtain rfl := List.mem_singleton.mp hf
      exact .inr (.inr rfl)
  refine ⟨(hvalue .date nofun).mpr fun _ => by decide, ?_, ?_⟩
  · apply ((hfilled {} 1 diaryFields {} hsentinel).2.2 hsparse).mpr
    rintro ⟨k, f, hf, hdate, hlt⟩
    match k with
    | 0 =>
      obtain rfl := Option.some.inj hf
      cases hdate
    | 1 => exact absurd hlt (by decide)
    | k + 2 => cases hf
  · exact (hpast {} 1 diaryFields {} hsentinel).1 ⟨1, _, rfl, rfl, by decide⟩

/-- The model is described early in the life of the counter, and not any more behind the last day. -/
theorem diary_refused_later :
    Sentinel.valueFor .date 95026237 = .error Sentinel.noDate ∧
      (∃ m, (diaryModel.build 1).1 = .ok m ∧ m.fields = diaryFields) ∧
      (diaryModel.build 95026236).1 = .error Sentinel.noDate := by
  refine ⟨by rfl, ⟨_, by rfl, by rfl⟩, by rfl⟩

end RecordMapper
