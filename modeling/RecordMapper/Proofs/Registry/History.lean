import RecordMapper.Proofs.Registry.Distinct
import RecordMapper.Proofs.Registry.Filling
import RecordMapper.Proofs.Result

/-!
# The generations of an alias

An alias is filled again and again, while others draw from the same counter. A history keeps the
keys of its fields after each filling that has succeeded. What the registry says of a key is
decided by the last two of these generations: a key of the latest denotes its field, a key of the
one before is refused unless it has come back, and all others are unknown.

A filling that fails begins no generation. It may leave the record in disorder, but the registry
is not changed by it.
-/

set_option autoImplicit false

namespace RecordMapper

namespace Registry

theorem position?_zipIdx_eq_some_iff {keys : List Key} (hnodup : keys.Nodup) (n i : Nat)
    (key : Key) : position? (keys.zipIdx n) key = some (n + i) ↔ keys[i]? = some key := by
  induction keys generalizing n i with
  | nil => simp [position?]
  | cons first rest ih =>
    obtain ⟨hfirst, hrest⟩ := List.nodup_cons.mp hnodup
    rw [List.zipIdx_cons, position?_cons]
    by_cases hkey : first = key
    · subst hkey
      cases i with
      | zero => simp
      | succ i =>
        have hother : rest[i]? ≠ some first := fun h => hfirst (List.mem_of_getElem? h)
        simp [hother]
    · cases i with
      | zero =>
        have hlater : position? (rest.zipIdx (n + 1)) key ≠ some n := by
          intro h
          obtain ⟨entry, hentry, rfl⟩ := Option.map_eq_some_iff.mp h
          have hle := List.le_snd_of_mem_zipIdx (List.mem_of_find?_eq_some hentry)
          omega
        simp [hkey, hlater]
      | succ i =>
        have hshift : n + (i + 1) = n + 1 + i := by omega
        simp only [hkey, if_false, hshift, ih hrest, List.getElem?_cons_succ]

theorem lookup_eq_retired_iff (g : Registry) (key : Key) :
    g.lookup key = .retired ↔ key ∈ g.retired ∧ key ∉ g.current.map (·.1) := by
  rw [← isSome_position?_iff]
  unfold lookup
  cases position? g.current key with
  | some i => simp
  | none => simp

theorem lookup_eq_miss_iff (g : Registry) (key : Key) :
    g.lookup key = .miss ↔ key ∉ g.retired ∧ key ∉ g.current.map (·.1) := by
  rw [← isSome_position?_iff]
  unfold lookup
  cases position? g.current key with
  | some i => simp
  | none => simp

theorem retired_succeed (g : Registry) (keys : List (Key × Nat)) :
    (g.succeed keys).retired = (g.current.map (·.1)).filter (· ∉ keys.map (·.1)) := by
  refine List.filter_congr fun key _ => ?_
  have hknown := isSome_position?_iff keys key
  cases hposition : position? keys key with
  | some i => simpa [hposition] using hknown
  | none => simpa [hposition] using hknown

/-- What a filling makes of a registry if it succeeds, told by the keys of the fields. -/
theorem succeeded_generate {g : Registry} {owner : Nat} {fields : List FieldMapping}
    {record : Record} {counter : UInt32}
    (h : (g.generate owner fields record counter).outcome = .ok ())
    (hslots : DistinctSlots record.layout fields) :
    let filled := g.generate owner fields record counter
    let keys := filled.record.keys owner fields
    keys.Nodup ∧ filled.registry.current = keys.zipIdx ∧
      filled.registry.retired = (g.current.map (·.1)).filter (· ∉ keys) ∧
      filled.registry.generation = g.generation + 1 := by
  intro filled keys
  have hexact := exact_generate h hslots
  obtain ⟨r, -, hg⟩ := generate_of_ok h
  have hregistry : filled.registry = g.succeed r.keys := congrArg Generation.registry hg
  have hentered : r.keys.map (·.1) = keys := by
    have hfst : filled.registry.current.map (·.1) = keys := hexact.map_fst
    rwa [hregistry] at hfst
  refine ⟨hexact.nodup, hexact.keys_eq, ?_, ?_⟩
  · rw [hregistry, retired_succeed, hentered]
  · rw [hregistry]
    rfl

end Registry

/-- A place is among the keys of a record only as the key of a field that stands there. -/
theorem Record.exists_of_mem_keys {r : Record} {owner : Nat} {fields : List FieldMapping}
    {place : Place} (h : .identity place ∈ r.keys owner fields) :
    ∃ g ∈ fields, r.place owner g.slot = place ∧ (r.key owner g.slot).isByValue = false := by
  obtain ⟨g, hg, hkey⟩ := List.mem_map.mp h
  have hvalue : (r.key owner g.slot).isByValue = false := by
    rw [hkey]
    rfl
  have hplace := FieldValue.key_of_not_isByValue hvalue
  rw [← Record.key, hkey] at hplace
  injection hplace with hplace
  exact ⟨g, hg, hplace.symm, hvalue⟩

namespace Alias

/-- How the fields are recognised as the record stands, in their order. -/
def fieldKeys (a : Alias) : List Key := a.record.keys a.id a.mapping.fields

/-- How an argument is refused that has this key. -/
def refusal (key : Key) : Result (Option Nat) :=
  .error (.unmappedField (.stale key.display))

end Alias

namespace Lookup

/-- What comes of looking up the key of an argument. -/
def outcome (key : Key) : Lookup → Result (Option Nat)
  | current i => .ok (some i)
  | retired => Alias.refusal key
  | miss => .ok none

theorem outcome_eq_some_iff {key : Key} {l : Lookup} {i : Nat} :
    l.outcome key = .ok (some i) ↔ l = current i := by
  cases l <;> simp [outcome, Alias.refusal]

theorem outcome_eq_refusal_iff {key : Key} {l : Lookup} :
    l.outcome key = Alias.refusal key ↔ l = retired := by
  cases l <;> simp [outcome, Alias.refusal]

theorem outcome_eq_none_iff {key : Key} {l : Lookup} : l.outcome key = .ok none ↔ l = miss := by
  cases l <;> simp [outcome, Alias.refusal]

end Lookup

theorem Alias.resolve_content (a : Alias) (v : FieldValue) (place : Place) :
    a.resolve (.content v place) = (a.registry.lookup (v.key place)).outcome (v.key place) := rfl

theorem Alias.resolve_reference (a : Alias) (slot : Slot) :
    a.resolve (a.reference slot) = (a.registry.lookup (a.key slot)).outcome (a.key slot) := rfl

/-- An alias with the keys of its fields after each filling that has succeeded, the latest
first. -/
structure History where
  subject : Alias
  generations : List (List Key) := []

namespace History

/-- The keys of the latest generation; none before the first one. -/
def latest (h : History) : List Key := h.generations.headD []

/-- The keys of the generation before the latest. -/
def former (h : History) : List Key := h.generations.tail.headD []

def refill (h : History) (counter : UInt32) : History :=
  match h.subject.refill counter with
  | (a, _, .ok ()) => ⟨a, a.fieldKeys :: h.generations⟩
  | (a, _, .error _) => ⟨a, h.generations⟩

/-- What becomes of an alias that is filled at each of these values of the counter. -/
def run (a : Alias) (counters : List UInt32) : History := counters.foldl refill { subject := a }

theorem refill_of_ok {h : History} {counter : UInt32}
    (hok : (h.subject.refill counter).2.2 = .ok ()) :
    h.refill counter = ⟨(h.subject.refill counter).1,
      (h.subject.refill counter).1.fieldKeys :: h.generations⟩ := by
  rcases hr : h.subject.refill counter with ⟨a, c, outcome⟩
  obtain rfl : outcome = .ok () := by simpa [hr] using hok
  simp [refill, hr]

theorem refill_of_error {h : History} {counter : UInt32} {e : Error}
    (herror : (h.subject.refill counter).2.2 = .error e) :
    h.refill counter = ⟨(h.subject.refill counter).1, h.generations⟩ := by
  rcases hr : h.subject.refill counter with ⟨a, c, outcome⟩
  obtain rfl : outcome = .error e := by simpa [hr] using herror
  simp [refill, hr]

/-- How the generations of an alias and its registry belong together. -/
structure Kept (a : Alias) (h : History) : Prop where
  id_eq : h.subject.id = a.id
  mapping_eq : h.subject.mapping = a.mapping
  layout_eq : h.subject.record.layout = a.record.layout
  current_eq : h.subject.registry.current = h.latest.zipIdx
  retired_eq : h.subject.registry.retired = h.former.filter (· ∉ h.latest)
  generation_eq : h.subject.registry.generation = h.generations.length
  nodup : ∀ keys ∈ h.generations, keys.Nodup
  length_eq : ∀ keys ∈ h.generations, keys.length = a.mapping.fields.length
  /-- Keys by place stay for good. -/
  place : ∀ keys ∈ h.generations, ∀ (i : Nat) (f : FieldMapping),
    a.mapping.fields[i]? = some f → f.type.hasKeyByValue = false →
      keys[i]? = some (.identity (a.place f.slot))
  place_only : ∀ keys ∈ h.generations, ∀ place, .identity place ∈ keys →
    ∃ f ∈ a.mapping.fields, a.place f.slot = place ∧ f.type.hasKeyByValue = false
  sentinel : h.generations ≠ [] → ∀ f ∈ a.mapping.fields,
    ∃ seq, f.type.sentinel seq = .ok (h.subject.record.get f.slot)

namespace Kept

variable {a : Alias} {h : History}

theorem start (a : Alias) (hnew : a.registry = {}) : Kept a { subject := a } where
  id_eq := rfl
  mapping_eq := rfl
  layout_eq := rfl
  current_eq := by rw [hnew]; rfl
  retired_eq := by rw [hnew]; rfl
  generation_eq := by rw [hnew]; rfl
  nodup := by simp
  length_eq := by simp
  place := by simp
  place_only := by simp
  sentinel := by simp

theorem nodup_latest (hk : Kept a h) : h.latest.Nodup := by
  unfold latest
  cases hgenerations : h.generations with
  | nil => exact List.nodup_nil
  | cons keys older => exact hk.nodup keys (by simp [hgenerations])

theorem map_fst_current (hk : Kept a h) : h.subject.registry.current.map (·.1) = h.latest := by
  rw [hk.current_eq]
  exact List.zipIdx_map_fst 0 _

theorem lookup_eq_current_iff (hk : Kept a h) (key : Key) (i : Nat) :
    h.subject.registry.lookup key = .current i ↔ h.latest[i]? = some key := by
  have hposition := Registry.position?_zipIdx_eq_some_iff hk.nodup_latest 0 i key
  rw [Nat.zero_add, ← hk.current_eq] at hposition
  exact (Registry.lookup_eq_current_iff _ key i).trans hposition

theorem lookup_eq_retired_iff (hk : Kept a h) (key : Key) :
    h.subject.registry.lookup key = .retired ↔ key ∈ h.former ∧ key ∉ h.latest := by
  rw [Registry.lookup_eq_retired_iff, hk.map_fst_current, hk.retired_eq, List.mem_filter,
    decide_eq_true_eq, and_assoc, and_self]

theorem lookup_eq_miss_iff (hk : Kept a h) (key : Key) :
    h.subject.registry.lookup key = .miss ↔ key ∉ h.former ∧ key ∉ h.latest := by
  rw [Registry.lookup_eq_miss_iff, hk.map_fst_current, hk.retired_eq, List.mem_filter,
    decide_eq_true_eq]
  refine ⟨fun ⟨hretired, hlatest⟩ => ⟨fun hformer => hretired ⟨hformer, hlatest⟩, hlatest⟩, ?_⟩
  exact fun ⟨hformer, hlatest⟩ => ⟨fun hretired => hformer hretired.1, hlatest⟩

theorem place_latest (hk : Kept a h) (hbegun : h.generations ≠ []) {i : Nat} {f : FieldMapping}
    (hf : a.mapping.fields[i]? = some f) (hplace : f.type.hasKeyByValue = false) :
    h.latest[i]? = some (.identity (a.place f.slot)) := by
  unfold latest
  cases hgenerations : h.generations with
  | nil => exact absurd hgenerations hbegun
  | cons keys older => exact hk.place keys (by simp [hgenerations]) i f hf hplace

theorem place_eq (hk : Kept a h) (slot : Slot) : h.subject.place slot = a.place slot := by
  rw [Alias.place, Alias.place, Record.place, Record.place, hk.id_eq, hk.layout_eq]

theorem hasDistinctSlots (hk : Kept a h) (hslots : a.HasDistinctSlots) :
    h.subject.HasDistinctSlots := by
  rw [Alias.HasDistinctSlots, hk.layout_eq, hk.mapping_eq]
  exact hslots

theorem refill_of_ok (hk : Kept a h) (hslots : a.HasDistinctSlots)
    {counter : UInt32} (hok : (h.subject.refill counter).2.2 = .ok ()) :
    Kept a (h.refill counter) := by
  rw [History.refill_of_ok hok]
  have hslots' := hk.hasDistinctSlots hslots
  obtain ⟨hnodup, hcurrent, hretired, hgeneration⟩ := Registry.succeeded_generate hok hslots'
  have hsentinel : ∀ f ∈ a.mapping.fields,
      ∃ seq, f.type.sentinel seq = .ok ((h.subject.refill counter).1.record.get f.slot) :=
    fun f hf => Alias.sentinel_refill hslots'.nodup hok (hk.mapping_eq ▸ hf)
  constructor
  case id_eq => exact hk.id_eq
  case mapping_eq => exact hk.mapping_eq
  case layout_eq => exact (h.subject.layout_refill counter).trans hk.layout_eq
  case current_eq => exact hcurrent
  case retired_eq =>
    rw [hk.map_fst_current] at hretired
    exact hretired
  case generation_eq =>
    rw [hk.generation_eq] at hgeneration
    exact hgeneration
  case nodup =>
    intro keys hkeys
    rcases List.mem_cons.mp hkeys with rfl | hkeys
    · exact hnodup
    · exact hk.nodup keys hkeys
  case length_eq =>
    intro keys hkeys
    rcases List.mem_cons.mp hkeys with rfl | hkeys
    · rw [← hk.mapping_eq]
      exact List.length_map _
    · exact hk.length_eq keys hkeys
  case place =>
    intro keys hkeys i f hf hplace
    rcases List.mem_cons.mp hkeys with rfl | hkeys
    · obtain ⟨seq, hseq⟩ := hsentinel f (List.mem_of_getElem? hf)
      rw [← hk.mapping_eq] at hf
      change (List.map _ h.subject.mapping.fields)[i]? = _
      rw [List.getElem?_map, hf, Option.map_some, Record.key,
        FieldType.key_of_place hseq hplace, ← hk.place_eq, ← h.subject.place_refill counter]
      rfl
    · exact hk.place keys hkeys i f hf hplace
  case place_only =>
    intro keys hkeys place hmem
    rcases List.mem_cons.mp hkeys with rfl | hkeys
    · obtain ⟨g, hg, rfl, hvalue⟩ := Record.exists_of_mem_keys hmem
      have hg : g ∈ a.mapping.fields := hk.mapping_eq ▸ hg
      obtain ⟨seq, hseq⟩ := hsentinel g hg
      rw [Record.key, FieldType.isByValue_key_of_sentinel hseq] at hvalue
      refine ⟨g, hg, ?_, hvalue⟩
      rw [← hk.place_eq, ← h.subject.place_refill counter]
      rfl
    · exact hk.place_only keys hkeys place hmem
  case sentinel => exact fun _ => hsentinel

theorem refill_of_error (hk : Kept a h) (hslots : a.HasDistinctSlots)
    {counter : UInt32} {e : Error} (herror : (h.subject.refill counter).2.2 = .error e) :
    Kept a (h.refill counter) := by
  rw [History.refill_of_error herror]
  obtain ⟨r, hfill, hg⟩ := Registry.generate_of_error herror
  have hregistry : (h.subject.refill counter).1.registry = h.subject.registry :=
    congrArg Generation.registry hg
  constructor
  case id_eq => exact hk.id_eq
  case mapping_eq => exact hk.mapping_eq
  case layout_eq => exact (h.subject.layout_refill counter).trans hk.layout_eq
  case current_eq => rw [hregistry]; exact hk.current_eq
  case retired_eq => rw [hregistry]; exact hk.retired_eq
  case generation_eq => rw [hregistry]; exact hk.generation_eq
  case nodup => exact hk.nodup
  case length_eq => exact hk.length_eq
  case place => exact hk.place
  case place_only => exact hk.place_only
  case sentinel =>
    intro hbegun f hf
    have hrecord : (h.subject.refill counter).1.record = r.record := congrArg Generation.record hg
    have hold := hk.sentinel hbegun
    have hnames := hslots.nodup
    rw [← hk.mapping_eq] at hnames hold hf
    rw [hrecord]
    exact (Refill.writes_of_fill hfill).sentinels hnames hold f hf

theorem refill (hk : Kept a h) (hslots : a.HasDistinctSlots)
    (counter : UInt32) : Kept a (h.refill counter) := by
  rcases houtcome : (h.subject.refill counter).2.2 with e | ⟨⟩
  · exact hk.refill_of_error hslots houtcome
  · exact hk.refill_of_ok hslots houtcome

theorem run (hnew : a.registry = {}) (hslots : a.HasDistinctSlots)
    (counters : List UInt32) : Kept a (History.run a counters) := by
  have extend (h : History) (hk : Kept a h) : Kept a (counters.foldl History.refill h) := by
    induction counters generalizing h with
    | nil => exact hk
    | cons counter rest ih => exact ih (h.refill counter) (hk.refill hslots counter)
  exact extend _ (start a hnew)

end Kept

end History

/-- It has come into being by fillings, the first of which has succeeded. -/
def Alias.HasHistory (a : Alias) : Prop :=
  ∃ blank counters, blank.registry = {} ∧ (History.run blank counters).subject = a ∧
    (History.run blank counters).generations ≠ []

theorem Alias.HasHistory.refill {a : Alias} (h : a.HasHistory) (counter : UInt32) :
    (a.refill counter).1.HasHistory := by
  obtain ⟨blank, counters, hblank, rfl, hbegun⟩ := h
  have hrun : History.run blank (counters ++ [counter]) =
      (History.run blank counters).refill counter := List.foldl_append
  refine ⟨blank, counters ++ [counter], hblank, ?_⟩
  rw [hrun]
  rcases hr : ((History.run blank counters).subject.refill counter).2.2 with e | ⟨⟩
  · rw [History.refill_of_error hr]
    exact ⟨rfl, hbegun⟩
  · rw [History.refill_of_ok hr]
    exact ⟨rfl, List.cons_ne_nil _ _⟩

theorem Workspace.hasHistory_newAlias {w w' : Workspace} {model : Model} {a : Alias}
    (h : w.newAlias model = (.ok a, w')) : a.HasHistory := by
  unfold newAlias at h
  split at h
  · simp at h
  · next mapping described hdescribe =>
    let blank : Alias := { id := described.nextAlias, model, mapping, record := model.initial }
    obtain ⟨ha, -⟩ := Prod.mk.inj h
    change (blank.refill described.counter).2.2.map (fun _ => (blank.refill described.counter).1) =
      .ok a at ha
    obtain ⟨⟨⟩, hok, rfl⟩ := Result.map_eq_ok_iff.mp ha
    have hrun : History.run blank [described.counter] =
        ⟨(blank.refill described.counter).1, [(blank.refill described.counter).1.fieldKeys]⟩ :=
      History.refill_of_ok (h := { subject := blank }) hok
    exact ⟨blank, [described.counter], rfl, by rw [hrun], by rw [hrun]; exact List.cons_ne_nil _ _⟩

theorem Program.hasHistory_step {p : Program} (h : ∀ entry ∈ p.aliases, entry.1.HasHistory)
    (act : Act) : ∀ entry ∈ (p.step act).aliases, entry.1.HasHistory := by
  cases act with
  | create model =>
    change ∀ entry ∈ (p.create model).aliases, _
    unfold Program.create
    split
    · next a workspace hnew =>
      intro entry hentry
      rcases List.mem_append.mp hentry with hentry | hentry
      · exact h entry hentry
      · obtain rfl := List.mem_singleton.mp hentry
        exact Workspace.hasHistory_newAlias hnew
    · exact h
  | refill i =>
    change ∀ entry ∈ (p.refill i).aliases, _
    unfold Program.refill
    split
    · next a complete ha =>
      intro entry hentry
      rcases List.mem_or_eq_of_mem_set hentry with hentry | rfl
      · exact h entry hentry
      · exact (h (a, complete) (List.mem_of_getElem? ha)).refill p.workspace.counter
    · exact h
  | describe | reserve | fresh | resetCounter | resetCatalog => exact h

/-- Only the creation of an alias and its own refilling make it what it is, whatever a program does
besides. -/
theorem Program.hasHistory_run (acts : List Act) :
    ∀ entry ∈ (Program.run acts).aliases, entry.1.HasHistory := by
  have extend (p : Program) (h : ∀ entry ∈ p.aliases, entry.1.HasHistory) :
      ∀ entry ∈ (acts.foldl step p).aliases, entry.1.HasHistory := by
    induction acts generalizing p with
    | nil => exact h
    | cons act rest ih => exact ih (p.step act) (hasHistory_step h act)
  exact extend {} (by simp)

namespace History

def spotFigure (name : String) : FieldMapping where
  column := { name, fieldName := name, sqlType := .tinyInt, isByValue := true }
  slot := [name]
  type := .scalar .int8

def spotDay : FieldMapping where
  column := { name := "day", fieldName := "day", sqlType := .date }
  slot := ["day"]
  type := .scalar .date

def spotModel : Model where
  id := 0
  typeName := "Spot"
  initial := {}
  description :=
    .setting (.field { fieldName := "x", slot := ["x"], type := .scalar .int8 }) <|
    .setting (.field { fieldName := "y", slot := ["y"], type := .scalar .int8 }) <|
    .setting (.field { fieldName := "day", slot := ["day"], type := .scalar .date }) .done

/-- An alias of two narrow numbers and a date, which has not been filled yet. -/
def spotAlias : Alias where
  id := 1
  model := spotModel
  mapping :=
    ⟨{ name := "Spot", columns :=
        [(spotFigure "x").column, (spotFigure "y").column, spotDay.column] },
      [spotFigure "x", spotFigure "y", spotDay]⟩
  record := {}

end History

end RecordMapper
