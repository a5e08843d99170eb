import RecordMapper.Proofs.Value.Text

/-!
# What a failed conversion names

A conversion that fails names the value by its text, the kind that it has and a kind that it could
not be brought to. Some kinds are reached by way of another one: narrow integers by way of those
of 64 bits, single numbers by way of double ones, large texts and byte strings by way of small
ones. A value that fails on the way is reported there, under the kind that was never asked for.
-/

set_option autoImplicit false

namespace RecordMapper

/-- The kind by way of which a value is brought to this one. -/
def ValueType.via : ValueType → ValueType
  | int8 | int16 | int32 => int64
  | real => double
  | clob => text
  | blob => bytes
  | target => target

namespace Value
variable {v : Value} {target : ValueType} {e : Error}

/-- The kind that is named as that of the value; large byte strings pass for small ones when they
are read as text. -/
def namedType (v : Value) (target : ValueType) : ValueType :=
  if v.type = .blob ∧ target.isTextual = true then .bytes else v.type

/-- The value is reported with its own kind. -/
theorem namedType_eq_iff :
    v.namedType target = v.type ↔ ¬ (v.type = .blob ∧ target.isTextual = true) := by
  unfold namedType
  split
  · next h => exact iff_of_false (by rw [h.1]; nofun) fun hnot => hnot h
  · next h => exact iff_of_true rfl h

theorem found_eq_error_iff {α : Type} {x : Option α} :
    v.found target x = .error e ↔ x = none ∧ e = v.cannotBecome target := by
  cases x with
  | none =>
    constructor
    · intro h
      exact ⟨rfl, (Except.error.inj h).symm⟩
    · rintro ⟨-, rfl⟩
      rfl
  | some a => exact ⟨nofun, nofun⟩

theorem error_of_toBool (h : v.toBool = .error e) : e = v.cannotBecome .bool := by
  cases v <;> cases h <;> rfl

theorem error_of_toInteger (h : v.toInteger = .error e) : e = v.cannotBecome .int64 :=
  (found_eq_error_iff.mp h).2

theorem error_of_toDouble (h : v.toDouble = .error e) : e = v.cannotBecome .double :=
  (found_eq_error_iff.mp h).2

/-- The bytes of a text that cannot be read are reported as a small byte string. -/
theorem error_of_toText (h : v.toText = .error e) :
    e = .unconvertible v.display (v.namedType .text) (.type .text) := by
  cases v with
  | bytes b => exact (found_eq_error_iff.mp h).2
  | blob b => exact (found_eq_error_iff.mp h).2
  | _ => cases h

theorem error_of_toBytes (h : v.toBytes = .error e) : e = v.cannotBecome .bytes :=
  (found_eq_error_iff.mp h).2

/-- An integer that does not fit is reported under the narrow kind, all else under 64 bits. -/
theorem error_of_narrow {bits : Nat} (h : v.narrow target bits = .error e) :
    v.toInteger = .error e ∨ (∃ n, v.toInteger = .ok n) ∧ e = v.cannotBecome target := by
  rcases Result.bind_eq_error_iff.mp h with h | ⟨n, hn, h⟩
  · exact .inl h
  · exact .inr ⟨⟨n, hn⟩, (found_eq_error_iff.mp h).2⟩

theorem error_of_toReal (h : v.toReal = .error e) :
    v.toDouble = .error e ∨ (∃ x, v.toDouble = .ok x) ∧ e = v.cannotBecome .real := by
  rcases Result.bind_eq_error_iff.mp h with h | ⟨x, hx, h⟩
  · exact .inl h
  · dsimp only at h
    split at h
    · exact .inr ⟨⟨x, hx⟩, (Except.error.inj h).symm⟩
    · cases h

/-- A kind on the way is reached by its reader, by the values of that kind as well. -/
theorem convert_int64 (h : v.isNull = false) :
    v.convert .int64 = v.toInteger.map fun n => .int64 (Int64.ofInt n) := by
  cases v <;> first | rfl | cases h
  case int64 n => exact congrArg (fun n => Except.ok (int64 n)) n.ofInt_toInt.symm

theorem convert_double (h : v.isNull = false) : v.convert .double = v.toDouble.map .double := by
  cases v <;> first | rfl | cases h

theorem convert_text (h : v.isNull = false) : v.convert .text = v.toText.map .text := by
  cases v <;> first | rfl | cases h

theorem convert_bytes (h : v.isNull = false) : v.convert .bytes = v.toBytes.map .bytes := by
  cases v <;> first | rfl | cases h

theorem isNull_of_convert_eq_error (h : v.convert target = .error e) :
    v.isNull = false ∧ v.type ≠ target := by
  unfold convert at h
  split at h
  · cases h
  · next hother => simpa using hother

/-- What fails fails on the way, or else it has got there and not further. Texts, once read, do not
fail any more. -/
theorem error_of_convert (h : v.convert target = .error e) :
    v.convert target.via = .error e ∨
      (∃ w, v.convert target.via = .ok w) ∧ target.isTextual = false ∧
        e = v.cannotBecome target := by
  obtain ⟨hnull, htype⟩ := isNull_of_convert_eq_error h
  have hread : v.convert target = _ := if_neg (by simpa using ⟨hnull, htype⟩)
  -- the three narrow integers go the same way
  have hinteger (hplain : target.isTextual = false)
      (h : v.toInteger = .error e ∨ (∃ n, v.toInteger = .ok n) ∧ e = v.cannotBecome target) :
      v.convert .int64 = .error e ∨
        (∃ w, v.convert .int64 = .ok w) ∧ target.isTextual = false ∧ e = v.cannotBecome target := by
    rw [convert_int64 hnull]
    rcases h with h | ⟨⟨n, hn⟩, he⟩
    · exact .inl (Result.map_eq_error_iff.mpr h)
    · exact .inr ⟨⟨_, Result.map_eq_ok_iff.mpr ⟨n, hn, rfl⟩⟩, hplain, he⟩
  rw [hread] at h
  cases target with
  | int8 | int16 | int32 => exact hinteger rfl (error_of_narrow (Result.map_eq_error_iff.mp h))
  | real =>
    change v.convert .double = _ ∨ (∃ w, v.convert .double = _) ∧ _
    rw [convert_double hnull]
    rcases error_of_toReal (Result.map_eq_error_iff.mp h) with h | ⟨⟨x, hx⟩, he⟩
    · exact .inl (Result.map_eq_error_iff.mpr h)
    · exact .inr ⟨⟨_, Result.map_eq_ok_iff.mpr ⟨x, hx, rfl⟩⟩, rfl, he⟩
  | clob =>
    have hfailed := Result.map_eq_error_iff.mp h
    exact .inl ((convert_text hnull).trans (Result.map_eq_error_iff.mpr hfailed))
  | blob =>
    have hfailed := Result.map_eq_error_iff.mp h
    exact .inl ((convert_bytes hnull).trans (Result.map_eq_error_iff.mpr hfailed))
  | _ => exact .inl (hread.trans h)

/-- Where nothing lies on the way, the kind that was asked for is named. -/
theorem error_of_convert_of_via_eq (hvia : target.via = target) (h : v.convert target = .error e) :
    e = .unconvertible v.display (v.namedType target) (.type target) := by
  obtain ⟨hnull, htype⟩ := isNull_of_convert_eq_error h
  have hread : v.convert target = _ := if_neg (by simpa using ⟨hnull, htype⟩)
  have hother (hbecome : e = v.cannotBecome target) (htarget : target.isTextual = false) :
      e = .unconvertible v.display (v.namedType target) (.type target) := by
    rw [namedType_eq_iff.mpr fun hblob => absurd (htarget.symm.trans hblob.2) nofun]
    exact hbecome
  rw [hread] at h
  cases target with
  | int8 | int16 | int32 | real | clob | blob => cases hvia
  | null => exact hother (Except.error.inj h).symm rfl
  | bool => exact hother (error_of_toBool (Result.map_eq_error_iff.mp h)) rfl
  | int64 => exact hother (error_of_toInteger (Result.map_eq_error_iff.mp h)) rfl
  | double => exact hother (error_of_toDouble (Result.map_eq_error_iff.mp h)) rfl
  | text => exact error_of_toText (Result.map_eq_error_iff.mp h)
  | bytes => exact hother (error_of_toBytes (Result.map_eq_error_iff.mp h)) rfl
  | decimal | date | time | timestamp | uuid =>
    exact hother (found_eq_error_iff.mp (Result.map_eq_error_iff.mp h)).2 rfl

@[simp] theorem via_via (target : ValueType) :
    target.via.via = target.via := by cases target <;> rfl

@[simp] theorem namedType_via (v : Value) (target : ValueType) :
    v.namedType target.via = v.namedType target := by
  cases target <;> rfl

/-- A failure names the value by its text, always. It names the kind of the value and the kind that
was asked for exactly if nothing lies on the way to that kind or the value gets past it, and the
value is not a large byte string that is read as text. Otherwise the kind on the way is named, and
large byte strings pass for small ones. -/
theorem failure_names_kinds_iff (h : v.convert target = .error e) :
    (e = v.cannotBecome target ↔
      (target.via = target ∨ ∃ w, v.convert target.via = .ok w) ∧
        ¬ (v.type = .blob ∧ target.isTextual = true)) ∧
    (e ≠ v.cannotBecome target →
      e = .unconvertible v.display (v.namedType target) (.type target.via)) := by
  rcases error_of_convert h with hvia | ⟨hpast, hplain, rfl⟩
  · have hnamed := error_of_convert_of_via_eq (via_via target) hvia
    rw [namedType_via] at hnamed
    refine ⟨?_, fun _ => hnamed⟩
    have hstuck : ¬ ∃ w, v.convert target.via = .ok w := fun ⟨w, hw⟩ => nomatch hvia.symm.trans hw
    rw [hnamed, cannotBecome, ← namedType_eq_iff, Error.unconvertible.injEq,
      ConversionTarget.type.injEq, or_iff_left hstuck]
    exact ⟨fun hsame => ⟨hsame.2.2, hsame.2.1⟩, fun hsame => ⟨rfl, hsame.2, hsame.1⟩⟩
  · refine ⟨iff_of_true rfl ⟨.inr hpast, fun hblob => ?_⟩, fun hne => absurd rfl hne⟩
    exact absurd (hplain.symm.trans hblob.2) nofun

/-- A number that is too large is reported under the kind that was asked for, a word that is no
number under that of 64 bits. -/
theorem failure_names_kinds_int8 :
    (int64 300).convert .int8 = .error (.unconvertible "300" .int64 (.type .int8)) ∧
      (text "five").convert .int8 = .error (.unconvertible "five" .text (.type .int64)) := by
  have hlarge : ∃ e, (int64 300).convert .int8 = .error e := ⟨_, rfl⟩
  have hread : integerOfText? "five" = none := by decide
  have hword : (text "five").convert .int8 = .error ((text "five").cannotBecome .int64) := by
    rw [Holds.text.convert_integer rfl, hread]
  constructor
  · obtain ⟨e, he⟩ := hlarge
    have hnamed := (failure_names_kinds_iff he).1.mpr ⟨.inr ⟨_, rfl⟩, by decide⟩
    have hdisplay : (int64 300).display = "300" := by decide +kernel
    rw [cannotBecome, hdisplay] at hnamed
    exact he.trans (congrArg Except.error hnamed)
  · have hnamed := (failure_names_kinds_iff hword).2 (by decide)
    exact hword.trans (congrArg Except.error hnamed)

/-- A word that is to become an integer of 8 bits is reported under 64 bits. Bytes that are no text
are reported as small ones, and under the small texts where a large one was asked for. -/
theorem failure_names_other_kinds :
    (text "x").convert .int8 = .error (.unconvertible "x" .text (.type .int64)) ∧
      (text "x").convert .real = .error (.unconvertible "x" .text (.type .double)) ∧
      (blob [255]).convert .clob = .error (.unconvertible "<1 bytes>" .bytes (.type .text)) ∧
      (bool true).convert .blob = .error (.unconvertible "true" .bool (.type .bytes)) ∧
      ¬ ∀ (v : Value) (target : ValueType) (e : Error),
        v.convert target = .error e → e = .unconvertible v.display v.type (.type target) := by
  have hinteger : integerOfText? "x" = none := by decide
  have hnumber : Binary.ofText? .double (Text.trimBlanks "x".toList) = none := by decide
  have hutf8 : String.fromUTF8? [(255 : UInt8)].toByteArray = none := by decide
  have hword : (text "x").convert .int8 = .error (.unconvertible "x" .text (.type .int64)) := by
    rw [Holds.text.convert_integer rfl, hinteger]
    rfl
  have hdouble : (text "x").toDouble = .error (.unconvertible "x" .text (.type .double)) :=
    congrArg ((text "x").found .double) hnumber
  have hshown : (bytes [255]).display = "<1 bytes>" := by decide +kernel
  have htext : (blob [255]).toText = .error (.unconvertible "<1 bytes>" .bytes (.type .text)) := by
    rw [← hshown]
    exact congrArg ((bytes [255]).found .text) hutf8
  refine ⟨hword, ?_, ?_, rfl, fun h => ?_⟩
  · have hreal : (text "x").toReal = .error (.unconvertible "x" .text (.type .double)) :=
      Result.bind_eq_error_iff.mpr (.inl hdouble)
    exact Result.map_eq_error_iff (f := Value.real).mpr hreal
  · exact Result.map_eq_error_iff (f := Value.clob).mpr htext
  · have hclaimed := h _ _ _ hword
    cases hclaimed

end Value

end RecordMapper
