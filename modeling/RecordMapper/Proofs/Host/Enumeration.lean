import RecordMapper.Proofs.Host.RoundTrip
import RecordMapper.Proofs.Numeral

/-!
# Members that are read back

A member is encoded and decoded again under one strategy. Names are looked for without the blanks
around the text that is read, so a name that has some is not found. Positions are stored in 32 bits.
An identifier is compared with what the text, number or other value that is read becomes when it is
brought to the kind of the identifier, and the first member that agrees is taken: a member whose
identifier becomes that of an earlier one, of another kind, is read as the earlier one. Identifiers
of one kind never get in each other's way.
-/

set_option autoImplicit false

namespace RecordMapper

/-- A search passes over what comes before. -/
theorem find?_finRange_eq_some_iff {n : Nat} {p : Fin n → Bool} {i : Fin n} :
    (List.finRange n).find? p = some i ↔ p i = true ∧ ∀ j < i, p j = false := by
  rw [List.find?_eq_some_iff_getElem]
  constructor
  · rintro ⟨hi, k, hk, heq, hbefore⟩
    rw [List.getElem_finRange] at heq
    subst heq
    refine ⟨hi, fun j hj => ?_⟩
    have hother := hbefore j.val hj
    rwa [List.getElem_finRange, Bool.not_eq_true'] at hother
  · rintro ⟨hi, hbefore⟩
    refine ⟨hi, i.val, by simp, by simp, fun j hj => ?_⟩
    rw [List.getElem_finRange, Bool.not_eq_true']
    exact hbefore _ hj

/-- Removing blanks from the ends shortens a text unless there are none. -/
theorem Text.trim_eq_of_sameLetters {s : String} (h : sameLetters s (trim s) = true) :
    trim s = s := by
  have hlength : s.toList.length = (trimBlanks s.toList).length := by
    have hsame := congrArg List.length (eq_of_beq h)
    simpa [trim] using hsame
  have hsublist : (trimBlanks s.toList).Sublist s.toList := by
    have hlast := List.dropWhile_sublist isBlank (l := (skipBlanks s.toList).reverse)
    exact (List.reverse_sublist.mpr hlast).trans
      (List.reverse_reverse _ ▸ List.dropWhile_sublist isBlank)
  rw [trim, hsublist.eq_of_length hlength.symm, String.ofList_toList]

namespace Enumeration
variable {e : Enumeration}

/-- The later member's identifier becomes that of the earlier one when it is brought to its kind,
which is another one. -/
def Captures (e : Enumeration) (earlier later : e.Member) : Prop :=
  earlier < later ∧ ∃ id own, (e.members.get earlier).customId = some id ∧
    (e.members.get later).customId = some own ∧ own.type ≠ id.type ∧
    ∃ w, own.convert id.type = .ok w ∧ w.same id = true

theorem decode_eq_ok_iff {v : Value} {strategy : EnumStrategy} {m : e.Member} :
    e.decode v strategy = .ok m ↔ e.find? v strategy = some m := by
  rw [decode]
  cases e.find? v strategy with
  | none =>
    constructor
    · intro h
      cases h
    · intro h
      cases h
  | some found => rw [Option.some.injEq, Except.ok.injEq]

theorem decode_name_iff (h : DistinctNames e.names) (m : e.Member) :
    e.decode (.text (e.members.get m).name) .name = .ok m ↔
      Text.trim (e.members.get m).name = (e.members.get m).name := by
  rw [decode_eq_ok_iff]
  constructor
  · intro hfound
    exact Text.trim_eq_of_sameLetters (find?_finRange_eq_some_iff.mp hfound).1
  · intro hbare
    exact find?_name h hbare rfl rfl

theorem hasId_eq_true_iff {v : Value} {m : EnumMember} :
    hasId v m = true ↔ ∃ id, m.customId = some id ∧ ∃ w, v.convert id.type = .ok w ∧
      w.same id = true := by
  cases hid : m.customId with
  | none => simp [hasId, hid]
  | some id =>
    cases hconvert : v.convert id.type with
    | error e => simp [hasId, hid, hconvert]
    | ok w => simp [hasId, hid, hconvert]

section Identifiers
variable (hdefined : ∀ id ∈ e.ids, id.same id = true)
  (hdistinct : e.ids.Pairwise fun a b => a.same b = false)
include hdistinct

/-- A value that is an identifier is found at its own member; before it, only where kinds differ. -/
theorem captures_iff_hasId {m j : e.Member} (hj : j < m) {own : Value}
    (hown : (e.members.get m).customId = some own) :
    hasId own (e.members.get j) = true ↔ e.Captures j m := by
  rw [hasId_eq_true_iff]
  constructor
  · rintro ⟨id, hid, w, hw, hsame⟩
    refine ⟨hj, id, own, hid, hown, fun htype => ?_, w, hw, hsame⟩
    rw [← htype, Value.convert_self] at hw
    obtain rfl := Except.ok.inj hw
    exact absurd (eq_of_same hdistinct hown hid hsame) (Fin.ne_of_gt hj)
  · rintro ⟨-, id, other, hid, hother, -, hw⟩
    obtain rfl := Option.some.inj (hother.symm.trans hown)
    exact ⟨id, hid, hw⟩

include hdefined

/-- The first of the members that capture the identifier is found, or else its own member. -/
theorem decode_customId_iff {m j : e.Member} {own : Value}
    (hown : (e.members.get m).customId = some own) :
    e.decode own .customId = .ok j ↔
      (j = m ∨ e.Captures j m) ∧ ∀ i < j, ¬ e.Captures i m := by
  have hself : hasId own (e.members.get m) = true := by
    rw [hasId_eq_true_iff]
    refine ⟨own, hown, own, own.convert_self, ?_⟩
    exact hdefined own (mem_ids (List.getElem_mem m.isLt) hown)
  have hbefore {i : e.Member} (hi : i < m) :
      hasId own (e.members.get i) = false ↔ ¬ e.Captures i m := by
    rw [← captures_iff_hasId hdistinct hi hown, Bool.not_eq_true]
  refine decode_eq_ok_iff.trans (find?_finRange_eq_some_iff.trans ?_)
  constructor
  · rintro ⟨hj, hfirst⟩
    have hle : j ≤ m := by
      by_contra hgt
      rw [hfirst m (Fin.not_le.mp hgt)] at hself
      cases hself
    refine ⟨?_, fun i hi => (hbefore (Fin.lt_of_lt_of_le hi hle)).mp (hfirst i hi)⟩
    rcases Nat.eq_or_lt_of_le hle with heq | hlt
    · exact .inl (Fin.ext heq)
    · exact .inr ((captures_iff_hasId hdistinct hlt hown).mp hj)
  · rintro ⟨hj, hfirst⟩
    have hle : j ≤ m := hj.elim Fin.le_of_eq fun hcaptures => Fin.le_of_lt hcaptures.1
    refine ⟨?_, fun i hi => (hbefore (Fin.lt_of_lt_of_le hi hle)).mpr (hfirst i hi)⟩
    rcases hj with rfl | hcaptures
    · exact hself
    · exact (captures_iff_hasId hdistinct hcaptures.1 hown).mpr hcaptures

end Identifiers

theorem encode_ordinal_iff {m : e.Member} {v : Value} :
    e.encode m .ordinal = .ok v ↔ m.val < Nat.pow 2 31 ∧ v = .int32 (Int32.ofNat m.val) := by
  simp only [encode]
  split
  · next hlt =>
    constructor
    · intro h
      exact ⟨hlt, (Except.ok.inj h).symm⟩
    · rintro ⟨-, rfl⟩
      rfl
  · next hlt =>
    constructor
    · intro h
      cases h
    · intro h
      exact absurd h.1 hlt

theorem encode_customId_iff {m : e.Member} {v : Value} :
    e.encode m .customId = .ok v ↔ (e.members.get m).customId = some v := by
  simp only [encode]
  cases (e.members.get m).customId with
  | none =>
    constructor
    · intro h
      cases h
    · intro h
      cases h
  | some id => rw [Option.some.injEq, Except.ok.injEq]

section Members
variable (hnames : DistinctNames e.names) (hdefined : ∀ id ∈ e.ids, id.same id = true)
  (hdistinct : e.ids.Pairwise fun a b => a.same b = false)
include hnames hdefined hdistinct

/-- No two members are stored as the same value. -/
theorem encode_inj {strategy : EnumStrategy} {m m' : e.Member} {v : Value}
    (h : e.encode m strategy = .ok v) (h' : e.encode m' strategy = .ok v) : m = m' := by
  cases strategy with
  | name =>
    have heq := Value.text.inj (Except.ok.inj (h.trans h'.symm))
    apply Fin.ext
    apply hnames.index_eq (getElem?_names m) (getElem?_names m')
    rw [heq]
    exact Text.sameLetters_refl _
  | ordinal =>
    obtain ⟨hlt, hv⟩ := encode_ordinal_iff.mp h
    obtain ⟨hlt', hv'⟩ := encode_ordinal_iff.mp h'
    exact Option.some.inj ((find?_ordinal hlt hv).symm.trans (find?_ordinal hlt' hv'))
  | customId =>
    have hid := encode_customId_iff.mp h
    exact eq_of_same hdistinct hid (encode_customId_iff.mp h')
      (hdefined v (mem_ids (List.getElem_mem m.isLt) hid))

/-- What becomes of a member that is stored and read again, where names and identifiers can be told
apart. No two members are stored alike. Under its name a member is always stored, and found again
exactly if there are no blanks around the name; under its position it is stored if that fits into 32
bits, and then found again; under its identifier it is stored if it has one, and what is found is
the first member that captures the identifier, or else the member itself. -/
theorem members_read_back (m : e.Member) :
    (∀ strategy m' v, e.encode m strategy = .ok v → e.encode m' strategy = .ok v → m = m') ∧
    (e.encode m .name = .ok (.text (e.members.get m).name) ∧
      (e.decode (.text (e.members.get m).name) .name = .ok m ↔
        Text.trim (e.members.get m).name = (e.members.get m).name)) ∧
    ((∃ v, e.encode m .ordinal = .ok v) ↔ m.val < Nat.pow 2 31) ∧
    (∀ v, e.encode m .ordinal = .ok v → e.decode v .ordinal = .ok m) ∧
    ((∃ v, e.encode m .customId = .ok v) ↔ (e.members.get m).customId ≠ none) ∧
    ∀ v, e.encode m .customId = .ok v →
      (∀ j, e.decode v .customId = .ok j ↔
        (j = m ∨ e.Captures j m) ∧ ∀ i < j, ¬ e.Captures i m) ∧
      ((∀ id ∈ e.ids, id.type = v.type) → e.decode v .customId = .ok m) := by
  refine ⟨fun strategy m' v h h' => encode_inj hnames hdefined hdistinct h h',
    ⟨rfl, decode_name_iff hnames m⟩, ?_, fun v h => ?_, ?_, fun v h => ?_⟩
  · simp only [encode_ordinal_iff, exists_and_left, exists_eq, and_true]
  · obtain ⟨hlt, hv⟩ := encode_ordinal_iff.mp h
    exact decode_eq_ok_iff.mpr (find?_ordinal hlt hv)
  · simp only [encode_customId_iff, Option.ne_none_iff_exists']
  · have hid := encode_customId_iff.mp h
    refine ⟨fun j => decode_customId_iff hdefined hdistinct hid, fun htype => ?_⟩
    rw [decode_customId_iff hdefined hdistinct hid]
    refine ⟨.inl rfl, fun i _ hcaptures => ?_⟩
    obtain ⟨-, id, own, hother, hown, hne, -⟩ := hcaptures
    obtain rfl := Option.some.inj (hown.symm.trans hid)
    exact hne (htype id (mem_ids (List.getElem_mem i.isLt) hother)).symm

end Members

/-- An answer with identifiers of three kinds. -/
def answer : Enumeration where
  name := "Answer"
  members := [⟨"Auto", none⟩, ⟨"Seven", some (.int64 7)⟩, ⟨"Off", some (.text "off")⟩,
    ⟨"On", some (.bool true)⟩, ⟨"Yes", some (.text "yes")⟩]

namespace answer

def on : answer.Member := ⟨3, by decide⟩

def yes : answer.Member := ⟨4, by decide⟩

theorem distinct_names : DistinctNames answer.names := by
  unfold DistinctNames
  decide

theorem distinct_ids : answer.ids.Pairwise fun a b => a.same b = false := by decide

end answer

/-- One member is told from all before it, and captures the identifier of the next one. -/
theorem members_read_back_answer :
    (∀ i < answer.on, ¬ answer.Captures i answer.on) ∧ answer.Captures answer.on answer.yes := by
  have hdefined : ∀ id ∈ answer.ids, id.same id = true := by decide
  have hmembers := members_read_back answer.distinct_names hdefined answer.distinct_ids
  obtain ⟨-, -, -, -, -, hon⟩ := hmembers answer.on
  obtain ⟨-, -, -, -, -, hyes⟩ := hmembers answer.yes
  have hreadOn : answer.decode (.bool true) .customId = .ok answer.on :=
    Result.eq_ok_of_toOption_eq_some (by decide)
  have hreadYes : answer.decode (.text "yes") .customId = .ok answer.on :=
    Result.eq_ok_of_toOption_eq_some (by decide)
  have hne : answer.on ≠ answer.yes := by decide
  have hcaptured := (((hyes (.text "yes") rfl).1 answer.on).mp hreadYes).1
  exact ⟨(((hon (.bool true) rfl).1 answer.on).mp hreadOn).2, hcaptured.resolve_left hne⟩

/-- Members without identifiers, named by their numbers. -/
def numbered (n : Nat) : Enumeration where
  name := "Number"
  members := (List.range n).map fun i => ⟨Numeral.ofNat i, none⟩

theorem distinct_names_numbered (n : Nat) : DistinctNames (numbered n).names := by
  have hlower (i : Nat) :
      (Numeral.ofNat i).toList.map Char.toLower = (Numeral.ofNat i).toList := by
    have hdigit : ∀ d < 10, (Nat.digitChar d).toLower = Nat.digitChar d := by decide
    rw [Numeral.toList_ofNat, Numeral.chars, List.map_map]
    exact List.map_congr_left fun d hd => hdigit d (Numeral.lt_of_mem_decimal hd)
  rw [names, numbered, DistinctNames, List.map_map, List.pairwise_map]
  refine List.nodup_range.imp fun {i j} hne => ?_
  rw [Bool.eq_false_iff]
  intro hsame
  have heq := eq_of_beq hsame
  simp only [Function.comp_apply, hlower] at heq
  exact hne (Numeral.eq_of_toList_ofNat heq)

/-- An identifier that is read as another member, a name that is not found for its blank, and a
position that does not fit into 32 bits. -/
theorem members_not_read_back :
    (DistinctNames answer.names ∧ (answer.ids.Pairwise fun a b => a.same b = false) ∧
      answer.encode answer.yes .customId = .ok (.text "yes") ∧
      answer.decode (.text "yes") .customId = .ok answer.on ∧ answer.on ≠ answer.yes) ∧
    (∃ (padded : Enumeration) (m : padded.Member) (v : Value),
      padded.members = [⟨" on", none⟩] ∧ padded.encode m .name = .ok v ∧
        (padded.decode v .name).toOption = none) ∧
    DistinctNames (numbered (2 ^ 31 + 1)).names ∧
      ∃ m : (numbered (2 ^ 31 + 1)).Member,
        ∀ v, (numbered (2 ^ 31 + 1)).encode m .ordinal ≠ .ok v := by
  refine ⟨⟨answer.distinct_names, answer.distinct_ids, rfl,
    Result.eq_ok_of_toOption_eq_some (by decide), by decide⟩, ?_,
    distinct_names_numbered _, ?_⟩
  · exact ⟨⟨"Padded", [⟨" on", none⟩]⟩, ⟨0, by decide⟩, .text " on", rfl, rfl, by decide⟩
  · have hlength (n : Nat) : (numbered n).members.length = n := by
      rw [numbered, List.length_map, List.length_range]
    refine ⟨⟨2 ^ 31, (hlength _).symm ▸ Nat.lt_succ_self _⟩, fun v h => ?_⟩
    exact Nat.lt_irrefl _ (encode_ordinal_iff.mp h).1

end Enumeration

end RecordMapper
