import RecordMapper.Machine
import RecordMapper.Proofs.Registry.Drawing
import RecordMapper.Proofs.Workspace.Description

/-!
# Keys of wide integers under a scheduler

The ledger says for each value that has been drawn which job it was given to. So no value belongs
to two jobs, and as long as the counter has not gone round, wide integers filled from different
values have different keys.
-/

set_option autoImplicit false

namespace RecordMapper

@[simp] theorem Errand.counter_conclude (errand : Errand) (p : Program) (g : Generation) :
    (errand.conclude p g).workspace.counter = p.workspace.counter := by
  unfold conclude
  split
  · exact Workspace.counter_enter _ _ _
  · dsimp only
    split <;> rfl

def ScalarType.isWide : ScalarType → Bool
  | int32 | int64 | uint32 => true
  | _ => false

def FieldType.isWide : FieldType → Bool
  | scalar type => type.isWide
  | _ => false

/-- The slots of the fields that hold a wide integer. -/
def Record.wideSlots (r : Record) (fields : List FieldMapping) : List Slot :=
  (fields.map (·.slot)).filter fun slot => (r.get slot).type.isWide

namespace Machine

/-- The keys of all wide integers of all generations, each with its job and its slot. -/
def wideKeys (m : Machine) : List ((Nat × Slot) × Key) :=
  m.jobs.zipIdx.flatMap fun (job, j) =>
    match job.filled? with
    | some g =>
      (g.record.wideSlots job.errand.fields).map fun slot =>
        ((j, slot), g.record.key job.errand.owner slot)
    | none => []

end Machine

theorem FieldType.integerBits?_of_isWide {type : FieldType} (h : type.isWide = true) :
    ∃ bits, type.integerBits? = some bits ∧ 32 ≤ bits := by
  cases type with
  | scalar type =>
    cases type with
    | int32 | int64 | uint32 => exact ⟨_, rfl, by decide⟩
    | _ => cases h
  | _ => cases h

/-- A wide integer is the content of fields of its type only. -/
theorem FieldType.isWide_of_sentinel {type : FieldType} {seq : UInt32} {v : FieldValue}
    (hv : type.sentinel seq = .ok v) (h : v.type.isWide = true) : type.isWide = true := by
  cases type with
  | scalar type =>
    obtain ⟨s, hs, rfl⟩ := Result.map_eq_ok_iff.mp hv
    rwa [FieldValue.type, ScalarType.type_of_sentinel hs] at h
  | enumeration e =>
    rw [sentinel] at hv
    split at hv
    · obtain rfl := Except.ok.inj hv
      cases h
    · cases hv
  | wrapped w =>
    rw [sentinel] at hv
    split at hv
    · obtain rfl := Except.ok.inj hv
      cases h
    · cases hv
  | optional type =>
    obtain ⟨inner, -, rfl⟩ := Result.map_eq_ok_iff.mp hv
    cases h

/-- The key of a wide integer tells the value of the counter. -/
theorem FieldType.key_of_wide {type : FieldType} (h : type.isWide = true) {seq : UInt32}
    {v : FieldValue} (hv : type.sentinel seq = .ok v) (place : Place) :
    ∃ n : Int, v.key place = .int n ∧ (2 : Int) ^ 32 ∣ n - seq.toNat := by
  obtain ⟨bits, hbits, hle⟩ := integerBits?_of_isWide h
  obtain ⟨n, hkey, hn⟩ := key_of_integer hbits hv place
  exact ⟨n, hkey, Int.dvd_trans (by exact_mod_cast Nat.pow_dvd_pow 2 hle) hn⟩

/-- Within one round of the counter the key of a wide integer tells which value it was. -/
theorem FieldType.tick_eq_of_key_eq {type other : FieldType} (hwide : type.isWide = true)
    (hwide' : other.isWide = true) {start : UInt32} {k l : Nat} (hk : k < 2 ^ 32) (hl : l < 2 ^ 32)
    {v w : FieldValue} (hv : type.sentinel (Sentinel.advance start k) = .ok v)
    (hw : other.sentinel (Sentinel.advance start l) = .ok w) {place place' : Place}
    (hkey : v.key place = w.key place') : k = l := by
  obtain ⟨x, hx, hxdvd⟩ := key_of_wide hwide hv place
  obtain ⟨y, hy, hydvd⟩ := key_of_wide hwide' hw place'
  obtain rfl : x = y := by
    rw [hx, hy] at hkey
    injection hkey
  have hclose (a b : Int) (ha : (2 : Int) ^ 32 ∣ x - a) (hb : (2 : Int) ^ 32 ∣ x - b) :
      (2 : Int) ^ 32 ∣ b - a := by
    have heq : x - a - (x - b) = b - a := by omega
    exact heq ▸ Int.dvd_sub ha hb
  rcases Nat.lt_trichotomy k l with hlt | heq | hlt
  · exact absurd (hclose _ _ hxdvd hydvd)
      (Sentinel.not_congruent_of_lt start (Nat.le_refl 32) hlt (by omega))
  · exact heq
  · exact absurd (hclose _ _ hydvd hxdvd)
      (Sentinel.not_congruent_of_lt start (Nat.le_refl 32) hlt (by omega))

namespace Machine

/-- The `k`-th value has been given to job `j`. -/
def Owns (m : Machine) (j k : Nat) : Prop := m.ledger[k]? = some (some j)

/-- The counter stands behind the values of the ledger, and whatever else is drawn, each job fills
its record from values that are its own. -/
structure Fair (start : UInt32) (m : Machine) : Prop where
  counter_eq : m.workspace.counter = Sentinel.advance start m.ledger.length
  settles : ∀ (j : Nat) (job : Job), m.jobs[j]? = some job →
    job.pending.Settles start (fun own _ g =>
      g.outcome = .ok () → ∃ tick, Tally start own job.errand.fields g.record tick)
      (m.Owns j) m.ledger.length

theorem owns_draw (m : Machine) (n : Nat) (drawer : Option Nat) (j : Nat) :
    (m.draw n drawer).Owns j = fun k =>
      m.Owns j k ∨ drawer = some j ∧ m.ledger.length ≤ k ∧ k < m.ledger.length + n := by
  funext k
  refine propext ?_
  unfold Owns draw
  dsimp only
  rcases Nat.lt_or_ge k m.ledger.length with hk | hk
  · rw [List.getElem?_append_left hk]
    exact ⟨.inl, fun h => h.resolve_right fun hdrawn => by omega⟩
  · rw [List.getElem?_append_right hk, List.getElem?_replicate]
    have hnone : m.ledger[k]? = none := List.getElem?_eq_none hk
    constructor
    · intro h
      split at h
      · next hlt => exact .inr ⟨Option.some.inj h, hk, by omega⟩
      · cases h
    · rintro (h | ⟨rfl, -, hlt⟩)
      · rw [hnone] at h
        cases h
      · rw [if_pos (by omega)]

/-- What stands in a list of jobs of which one has been changed. -/
theorem cases_of_getElem?_set {jobs : List Job} {i j : Nat} {job changed other : Job}
    (hjob : jobs[j]? = some job) (h : (jobs.set j changed)[i]? = some other) :
    (i = j ∧ other = changed) ∨ (i ≠ j ∧ jobs[i]? = some other) := by
  rw [List.getElem?_set] at h
  split at h
  · next heq =>
    subst heq
    rw [if_pos (List.getElem?_eq_some_iff.mp hjob).1] at h
    exact .inl ⟨rfl, (Option.some.inj h).symm⟩
  · next hne => exact .inr ⟨fun heq => hne heq.symm, h⟩

namespace Fair
variable {start : UInt32} {m : Machine}

theorem of_program (h : m.Fair start) {p : Program}
    (hcounter : p.workspace.counter = m.workspace.counter) :
    Fair start { m with toProgram := p } where
  counter_eq := hcounter.trans h.counter_eq
  settles := h.settles

theorem begin (h : m.Fair start) (errand : Errand) : (m.begin errand).Fair start where
  counter_eq := h.counter_eq
  settles := by
    intro j job hj
    rw [Machine.begin] at hj
    rcases Nat.lt_or_ge j m.jobs.length with hlt | hge
    · rw [List.getElem?_append_left hlt] at hj
      exact h.settles j job hj
    · rw [List.getElem?_append_right hge, List.getElem?_singleton] at hj
      split at hj
      · obtain rfl := Option.some.inj hj
        cases errand with
        | build model described => exact Registry.settles_generating _ _ _ _ _ _ _
        | fill a place => exact Registry.settles_generating _ _ _ _ _ _ _
      · cases hj

theorem counter_draw (h : m.Fair start) (n : Nat) (drawer : Option Nat) :
    (m.draw n drawer).workspace.counter =
      Sentinel.advance start (m.draw n drawer).ledger.length := by
  have hadvanced := Sentinel.advance_advance start m.ledger.length n
  rw [← h.counter_eq] at hadvanced
  refine hadvanced.trans ?_
  rw [draw, List.length_append, List.length_replicate]

/-- The jobs that have not drawn go on to own what they owned. -/
theorem settles_draw (h : m.Fair start) (n : Nat) {drawer : Option Nat} {j : Nat} {job : Job}
    (hj : m.jobs[j]? = some job) (hother : drawer ≠ some j) :
    job.pending.Settles start (fun own _ g =>
      g.outcome = .ok () → ∃ tick, Tally start own job.errand.fields g.record tick)
      ((m.draw n drawer).Owns j) (m.draw n drawer).ledger.length := by
  have hsame : (m.draw n drawer).Owns j = m.Owns j := by
    rw [owns_draw]
    funext k
    exact propext ⟨fun hk => hk.resolve_right fun hdrawn => hother hdrawn.1, .inl⟩
  rw [hsame]
  refine (h.settles j job hj).later ?_
  rw [draw, List.length_append]
  exact Nat.le_add_right _ _

theorem draw (h : m.Fair start) (n : Nat) : (m.draw n none).Fair start where
  counter_eq := h.counter_draw n none
  settles _ _ hj := h.settles_draw n hj nofun

theorem proceed (h : m.Fair start) (j : Nat) : (m.proceed j).Fair start := by
  unfold Machine.proceed
  split
  · exact h
  · next job hjob =>
    have hsettles := h.settles j job hjob
    split
    · next n next hpending =>
      refine ⟨h.counter_draw n (some j), ?_⟩
      intro i other hi
      rcases cases_of_getElem?_set hjob hi with ⟨rfl, rfl⟩ | ⟨hne, hi⟩
      · -- it is given the values behind all that have been drawn
        rw [hpending] at hsettles
        have hgiven := hsettles m.ledger.length (Nat.le_refl _)
        rw [← h.counter_eq] at hgiven
        change (next m.workspace.counter).Settles start _ ((m.draw n (some i)).Owns i)
          (m.draw n (some i)).ledger.length
        rw [owns_draw, Machine.draw, List.length_append, List.length_replicate]
        simpa only [true_and] using hgiven
      · exact h.settles_draw n hi fun heq => hne (Option.some.inj heq).symm
    · next g hpending =>
      split
      · exact h
      · refine ⟨(job.errand.counter_conclude m.toProgram g).trans h.counter_eq, ?_⟩
        intro i other hi
        rcases cases_of_getElem?_set hjob hi with ⟨rfl, rfl⟩ | ⟨-, hi⟩
        · exact hsettles
        · exact h.settles i other hi

theorem step (h : m.Fair start) (move : Move) : (m.step move).Fair start := by
  cases move with
  | describe model =>
    change (m.describe model).Fair start
    unfold Machine.describe
    split
    · exact h
    · split
      · exact h.of_program (Workspace.counter_enter _ _ _)
      · exact h.begin _
  | create model =>
    change (m.create model).Fair start
    unfold Machine.create
    split
    · next mapping _ =>
      let workspace := { m.workspace with nextAlias := m.workspace.nextAlias + 1 }
      have hnext : Fair start { m with workspace } := ⟨h.counter_eq, h.settles⟩
      exact hnext.begin _
    · exact h
  | refill i =>
    change (m.refill i).Fair start
    unfold Machine.refill
    split
    · split
      · exact h
      · exact h.begin _
    · exact h
  | proceed j => exact h.proceed j
  | reserve n => exact h.draw n
  | fresh type => exact h.draw 1

theorem run (h : m.Fair start) (moves : List Move) : (m.run moves).Fair start := by
  induction moves generalizing m with
  | nil => exact h
  | cons move rest ih => exact ih (h.step move)

end Fair

theorem exists_of_mem_wideKeys {m : Machine} {j : Nat} {slot : Slot} {key : Key}
    (h : ((j, slot), key) ∈ m.wideKeys) :
    ∃ job g, m.jobs[j]? = some job ∧ job.pending = .done g ∧ g.outcome = .ok () ∧
      slot ∈ job.errand.fields.map (·.slot) ∧ (g.record.get slot).type.isWide = true ∧
      key = g.record.key job.errand.owner slot := by
  obtain ⟨⟨job, i⟩, hjob, hmem⟩ := List.mem_flatMap.mp h
  have hget := List.mem_zipIdx_iff_getElem?.mp hjob
  dsimp only at hmem hget
  split at hmem
  · next g hfilled =>
    obtain ⟨other, hother, heq⟩ := List.mem_map.mp hmem
    obtain ⟨hplace, rfl⟩ := Prod.mk.inj heq
    obtain ⟨rfl, rfl⟩ := Prod.mk.inj hplace
    obtain ⟨hslot, hwide⟩ := List.mem_filter.mp hother
    unfold Job.filled? at hfilled
    split at hfilled
    · next g' hpending =>
      split at hfilled
      · next hok =>
        obtain rfl := Option.some.inj hfilled
        refine ⟨job, _, hget, hpending, ?_, hslot, hwide, rfl⟩
        rcases houtcome : g'.outcome with e | ⟨⟩
        · rw [houtcome] at hok
          cases hok
        · rfl
      · cases hfilled
    · cases hfilled
  · cases hmem

/-- A wide integer of a generation is the sentinel for a value that its job was given. -/
theorem Fair.exists_tick {start : UInt32} {m : Machine} (h : m.Fair start) {j : Nat} {job : Job}
    {g : Generation} (hj : m.jobs[j]? = some job) (hpending : job.pending = .done g)
    (hok : g.outcome = .ok ()) :
    ∃ tick : Slot → Nat, (∀ slot ∈ job.errand.fields.map (·.slot), m.Owns j (tick slot) ∧
        ((g.record.get slot).type.isWide = true → ∃ type : FieldType, type.isWide = true ∧
          type.sentinel (Sentinel.advance start (tick slot)) = .ok (g.record.get slot))) ∧
      ∀ slot ∈ job.errand.fields.map (·.slot), ∀ slot' ∈ job.errand.fields.map (·.slot),
        tick slot = tick slot' → slot = slot' := by
  have hsettles := h.settles j job hj
  rw [hpending] at hsettles
  obtain ⟨tick, htally⟩ := hsettles hok
  refine ⟨tick, ?_, ?_⟩
  · intro slot hslot
    obtain ⟨f, hf, rfl⟩ := List.mem_map.mp hslot
    refine ⟨htally.owned f hf, fun hwide => ?_⟩
    obtain ⟨g', -, -, hsentinel⟩ := htally.sentinel f hf
    exact ⟨g'.type, FieldType.isWide_of_sentinel hsentinel hwide, hsentinel⟩
  · intro slot hslot slot' hslot' htick
    obtain ⟨f, hf, rfl⟩ := List.mem_map.mp hslot
    obtain ⟨f', hf', rfl⟩ := List.mem_map.mp hslot'
    exact htally.injective f hf f' hf' htick

theorem Owns.eq {m : Machine} {i j k : Nat} (hi : m.Owns i k) (hj : m.Owns j k) : i = j :=
  Option.some.inj (Option.some.inj (hi.symm.trans hj))

/-- In whatever order descriptions, creations, fillings and the draws within them are carried out,
as long as the counter has not gone round, no two wide integers have the same key, of all fields
of all generations. The jobs carry out `Registry.generate`, draw by draw: left alone, a job comes
to what it gives (`Registry.alone_generating`), and every program without resets is a run of the
machine (`Machine.exists_run_eq_foldl`). -/
theorem eq_of_wide_key_eq (p : Program) (moves : List Move)
    (hround : (run { p with } moves).ledger.length ≤ 2 ^ 32) {x y : (Nat × Slot) × Key}
    (hx : x ∈ (run { p with } moves).wideKeys) (hy : y ∈ (run { p with } moves).wideKeys)
    (hkey : x.2 = y.2) : x.1 = y.1 := by
  obtain ⟨⟨i, slot⟩, key⟩ := x
  obtain ⟨⟨j, slot'⟩, key'⟩ := y
  have hfair : (run { p with } moves).Fair p.workspace.counter :=
    Fair.run ⟨by simp [Sentinel.advance], by simp⟩ moves
  have hlt {j k : Nat} (howns : (run { p with } moves).Owns j k) : k < 2 ^ 32 :=
    Nat.lt_of_lt_of_le (List.getElem?_eq_some_iff.mp howns).1 hround
  obtain ⟨job, g, hjob, hpending, hok, hslot, hwide, rfl⟩ := exists_of_mem_wideKeys hx
  obtain ⟨job', g', hjob', hpending', hok', hslot', hwide', rfl⟩ := exists_of_mem_wideKeys hy
  obtain ⟨tick, htick, hinjective⟩ := hfair.exists_tick hjob hpending hok
  obtain ⟨howns, hsentinel⟩ := htick slot hslot
  obtain ⟨type, htype, hv⟩ := hsentinel hwide
  by_cases hij : i = j
  · -- the values of one job serve for one slot each
    subst hij
    obtain rfl : job = job' := Option.some.inj (hjob.symm.trans hjob')
    obtain rfl : g = g' := Drawing.done.inj (hpending.symm.trans hpending')
    obtain ⟨howns', hsentinel'⟩ := htick slot' hslot'
    obtain ⟨type', htype', hv'⟩ := hsentinel' hwide'
    have hsame := FieldType.tick_eq_of_key_eq htype htype' (hlt howns) (hlt howns') hv hv' hkey
    rw [hinjective slot hslot slot' hslot' hsame]
  · -- no value is given to two jobs
    obtain ⟨tick', htick', -⟩ := hfair.exists_tick hjob' hpending' hok'
    obtain ⟨howns', hsentinel'⟩ := htick' slot' hslot'
    obtain ⟨type', htype', hv'⟩ := hsentinel' hwide'
    have hsame := FieldType.tick_eq_of_key_eq htype htype' (hlt howns) (hlt howns') hv hv' hkey
    exact absurd (howns.eq (hsame ▸ howns')) hij

end Machine

def meterModel : Model where
  id := 0
  typeName := "Meter"
  initial := {}
  description :=
    .setting (.field { fieldName := "low", slot := ["low"], type := .scalar .float32 }) <|
    .setting (.field { fieldName := "high", slot := ["high"], type := .scalar .float32 }) <|
    .setting (.field { fieldName := "id", slot := ["id"], type := .scalar .int64 }) <|
    .setting (.field { fieldName := "count", slot := ["count"], type := .scalar .int32 }) .done

def siteModel : Model where
  id := 1
  typeName := "Site"
  initial := {}
  description :=
    .setting (.field { fieldName := "code", slot := ["code"], type := .scalar .uint32 }) <|
    .setting (.field { fieldName := "id", slot := ["id"], type := .scalar .int64 }) .done

namespace Machine

/-- Both models are described at the same time. The numbers of single precision of the first get
the same sentinel, and before the second of them is drawn again the other model has drawn. Then an
alias of each is filled. -/
def rushMoves : List Move :=
  [.describe meterModel, .describe siteModel, .proceed 0, .proceed 1, .fresh .text, .proceed 0,
    .proceed 1, .proceed 0, .create meterModel, .create siteModel, .proceed 3, .proceed 2]

theorem wide_keys_rush :
    let m := run { workspace := { counter := 0xFFFFFFFC } } rushMoves
    m.ledger = [some 0, some 0, some 0, some 0, some 1, some 1, none, some 0, some 3, some 3,
        some 2, some 2, some 2, some 2] ∧
      m.wideKeys =
        [((0, ["id"]), .int 4294967294), ((0, ["count"]), .int (-1)), ((1, ["code"]), .int 0),
          ((1, ["id"]), .int 1), ((2, ["id"]), .int 8), ((2, ["count"]), .int 9),
          ((3, ["code"]), .int 4), ((3, ["id"]), .int 5)] ∧
      ∀ x ∈ m.wideKeys, ∀ y ∈ m.wideKeys, x.2 = y.2 → x.1 = y.1 := by
  intro m
  have hledger : m.ledger = [some 0, some 0, some 0, some 0, some 1, some 1, none, some 0, some 3,
      some 3, some 2, some 2, some 2, some 2] := by decide +kernel
  have hround : m.ledger.length ≤ 2 ^ 32 := by
    rw [hledger]
    decide
  refine ⟨hledger, by decide +kernel, ?_⟩
  intro x hx y hy hkey
  exact eq_of_wide_key_eq { workspace := { counter := 0xFFFFFFFC } } rushMoves hround hx hy hkey

end Machine

end RecordMapper
