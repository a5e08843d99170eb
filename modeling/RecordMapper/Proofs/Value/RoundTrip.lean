import RecordMapper.Proofs.Calendar.Reading
import RecordMapper.Proofs.Decimal.Reading
import RecordMapper.Proofs.Uuid
import RecordMapper.Proofs.Value.Text

/-!
# Values that survive a written form

A value of most kinds can be written as text and read again. Its text is the one that is displayed,
and the reader of its kind accepts that text before any other of the readers that it tries. Bytes
are the other written form: of a text they are its encoding, which loses nothing, and bytes that
are no encoding of a text do not become one.
-/

set_option autoImplicit false

namespace RecordMapper

/-- The kinds whose values tell all of themselves in their text. Byte strings show their length
only; binary numbers are left out here. -/
def ValueType.isLegible : ValueType → Bool
  | null | real | double | bytes | blob => false
  | _ => true

namespace Text

@[simp] theorem toList_toByteArray (bytes : ByteArray) : bytes.toList.toByteArray = bytes := by
  have hloop (i : Nat) (taken : List UInt8) :
      ByteArray.toList.loop bytes i taken = taken.reverse ++ bytes.data.toList.drop i := by
    induction i, taken using ByteArray.toList.loop.induct bytes with
    | case1 i taken hlt ih =>
      have hi : i < bytes.data.toList.length := by simpa using hlt
      have hget : bytes.get! i = bytes.data.toList[i] := by
        rw [Array.getElem_toList]
        exact getElem!_pos bytes.data i (by simpa using hlt)
      rw [ByteArray.toList.loop, if_pos hlt, ih, List.drop_eq_getElem_cons hi, hget]
      simp
    | case2 i taken hge =>
      have hend : bytes.data.toList.length ≤ i := by simpa using hge
      rw [ByteArray.toList.loop, if_neg hge, List.drop_eq_nil_of_le hend, List.append_nil]
  have hlist : bytes.toList = bytes.data.toList := by
    rw [ByteArray.toList, hloop]
    rfl
  apply ByteArray.ext
  rw [hlist, List.data_toByteArray, Array.toArray_toList]

@[simp] theorem fromUTF8?_bytes (s : String) :
    String.fromUTF8? s.toUTF8.toList.toByteArray = some s := by
  rw [toList_toByteArray, String.fromUTF8?, String.toUTF8_eq_toByteArray, dif_pos s.isValidUTF8]
  rfl

theorem bytes_of_fromUTF8? {bytes : List UInt8} {s : String}
    (h : String.fromUTF8? bytes.toByteArray = some s) : s.toUTF8.toList = bytes := by
  unfold String.fromUTF8? at h
  split at h
  · next hvalid =>
    obtain rfl := Option.some.inj h
    have hback := toList_toByteArray (String.fromUTF8 bytes.toByteArray hvalid).toUTF8
    exact List.toByteArray_inj.mp hback
  · cases h

end Text

namespace Value
variable {s : String} {v w : Value} {b : List UInt8}

theorem integerOfText?_ofInt {n : Int} (h : fits64 n = true) :
    integerOfText? (Numeral.ofInt n) = some n := by
  rw [integerOfText?, Text.trimBlanks_of_isTrimmed (Numeral.isTrimmed_ofInt n),
    Numeral.integer?_ofInt, Option.filter_some_pos h]
  rfl

/-- A value of an integer kind is displayed as an integer of that kind. -/
theorem exists_display_of_isInteger (h : v.type.isInteger = true) :
    ∃ n, v.display = Numeral.ofInt n ∧ v.type.Admits n ∧ v.type.ofInteger n = v := by
  cases v <;> cases h
  case int8 n => exact ⟨_, rfl, ⟨n.le_toInt, n.toInt_lt⟩, congrArg Value.int8 n.ofInt_toInt⟩
  case int16 n => exact ⟨_, rfl, ⟨n.le_toInt, n.toInt_lt⟩, congrArg Value.int16 n.ofInt_toInt⟩
  case int32 n => exact ⟨_, rfl, ⟨n.le_toInt, n.toInt_lt⟩, congrArg Value.int32 n.ofInt_toInt⟩
  case int64 n => exact ⟨_, rfl, ⟨n.le_toInt, n.toInt_lt⟩, congrArg Value.int64 n.ofInt_toInt⟩

theorem same_self (hv : v.type.isLegible = true) : v.same v = true := by
  cases v with
  | null | real | double | bytes | blob => cases hv
  | decimal d => exact decide_eq_true rfl
  | _ => exact decide_eq_true rfl

theorem isTrimmed_display (hv : v.type.isRead = true) : Text.IsTrimmed v.display.toList := by
  cases v <;> cases hv
  case decimal d => exact d.isTrimmed_text
  case date d => exact d.isTrimmed_text
  case time t => exact t.isTrimmed_text
  case timestamp t => exact t.isTrimmed_text
  case uuid u => exact u.isTrimmed_text

/-- The reader of the kind comes first, and it does not fail. -/
theorem reading?_display (hv : v.type.isRead = true) :
    ∃ back, reading? v.type v.display.toList = some back ∧ back.same v = true := by
  cases v <;> cases hv
  case decimal d =>
    refine ⟨.decimal d.withoutZeroSign, ?_, d.same_withoutZeroSign⟩
    rw [type, display, reading?, d.ofText?_text, Option.map_some]
  case date d =>
    refine ⟨.date d, ?_, same_self rfl⟩
    rw [type, display, reading?, d.ofText?_text, Option.some_or, Option.map_some]
  case time t =>
    refine ⟨.time t, ?_, same_self rfl⟩
    rw [type, display, reading?, t.ofText?_text, Option.some_or, Option.map_some]
  case timestamp t =>
    refine ⟨.timestamp t, ?_, same_self rfl⟩
    rw [type, display, reading?, t.ofText?_text, Option.some_or, Option.map_some]
  case uuid u =>
    refine ⟨.uuid u, ?_, same_self rfl⟩
    rw [type, display, reading?, u.ofText?_text, Option.map_some]

theorem convert_toText {target : ValueType} (hnull : v.isNull = false) (hother : v.type ≠ target)
    (htoText : v.toText = .ok s) (ht : target.isTextual = true) :
    ∃ w, v.convert target = .ok w ∧ Holds s w ∧ w.type = target := by
  cases target <;> cases ht
  · exact ⟨.text s, by simp [convert, hnull, hother, htoText, Except.map], .text, rfl⟩
  · exact ⟨.clob s, by simp [convert, hnull, hother, htoText, Except.map], .clob, rfl⟩

/-- What stands in a text is written as it is displayed, and a text as itself. -/
theorem exists_written (hv : v.type.isLegible = true) {target : ValueType}
    (ht : target.isTextual = true) :
    ∃ w, v.convert target = .ok w ∧ Holds v.display w ∧ w.type = target := by
  by_cases htext : v.type.isTextual = true
  · obtain ⟨s, hs⟩ := Holds.of_isTextual htext
    have hdisplay : v.display = s := by cases hs <;> rfl
    rw [hdisplay]
    exact hs.convert_textual ht
  · have hnull : v.isNull = false := by cases v <;> first | rfl | cases hv
    have htoText : v.toText = .ok v.display := by cases v <;> first | rfl | cases hv
    exact convert_toText hnull (fun h => htext (h ▸ ht)) htoText ht

theorem exists_read (hv : v.type.isLegible = true) (hw : Holds v.display w) :
    ∃ back, w.convert v.type = .ok back ∧ back.same v = true := by
  by_cases hinteger : v.type.isInteger = true
  · obtain ⟨n, hdisplay, hadmits, hback⟩ := exists_display_of_isInteger hinteger
    rw [hdisplay] at hw
    refine ⟨v, ?_, same_self hv⟩
    rw [hw.convert_integer hinteger, integerOfText?_ofInt (fits64_of_admits hinteger hadmits)]
    simp only [if_pos hadmits, hback]
  by_cases hread : v.type.isRead = true
  · obtain ⟨back, hback, hsame⟩ := reading?_display hread
    refine ⟨back, ?_, hsame⟩
    rw [hw.convert_read hread, Text.trimBlanks_of_isTrimmed (isTrimmed_display hread), hback,
      found_some]
  by_cases htext : v.type.isTextual = true
  · obtain ⟨s, hs⟩ := Holds.of_isTextual htext
    have hdisplay : v.display = s := by cases hs <;> rfl
    obtain ⟨back, hback, hholds, htype⟩ := hw.convert_textual htext
    rw [hdisplay] at hholds
    obtain rfl := hholds.eq_of_type hs htype
    exact ⟨back, hback, same_self hv⟩
  · cases v with
    | bool b =>
      have htruth : truthOfText (bool b).display = b := by cases b <;> decide
      refine ⟨.bool b, ?_, same_self hv⟩
      rw [← htruth]
      exact hw.convert_bool
    | _ => simp_all [type, ValueType.isLegible, ValueType.isInteger, ValueType.isRead,
        ValueType.isTextual]

theorem Carries.of_isBinary (h : v.type.isBinary = true) : ∃ b, Carries b v := by
  cases v <;> cases h
  · exact ⟨_, .bytes⟩
  · exact ⟨_, .blob⟩

theorem Carries.toText (h : Carries b v) :
    v.toText = (Value.bytes b).found .text (String.fromUTF8? b.toByteArray) := by
  cases h <;> rfl

/-- What carries the bytes of a text is brought back to it. -/
theorem Carries.convert_textual (h : Carries s.toUTF8.toList v) {target : ValueType}
    (ht : target.isTextual = true) :
    ∃ w, v.convert target = .ok w ∧ Holds s w ∧ w.type = target := by
  refine convert_toText (by cases h <;> rfl) (fun hsame => ?_) ?_ ht
  · rw [← hsame] at ht
    cases h <;> cases ht
  · rw [h.toText, Text.fromUTF8?_bytes, found_some]

/-- Bytes become a text only if they are those of the text. -/
theorem Carries.of_convert (h : Carries b v) {target : ValueType} (ht : target.isTextual = true)
    (hw : v.convert target = .ok w) : ∃ s : String, s.toUTF8.toList = b := by
  have hconvert : ∃ x, v.toText = .ok x := by
    have hmapped : ∃ wrap : String → Value, v.convert target = v.toText.map wrap := by
      cases target <;> cases ht
      · exact ⟨.text, by cases h <;> rfl⟩
      · exact ⟨.clob, by cases h <;> rfl⟩
    obtain ⟨wrap, hmap⟩ := hmapped
    obtain ⟨x, hx, -⟩ := Result.map_eq_ok_iff.mp (hmap.symm.trans hw)
    exact ⟨x, hx⟩
  obtain ⟨x, hx⟩ := hconvert
  rw [h.toText] at hx
  cases hread : String.fromUTF8? b.toByteArray with
  | none => rw [hread] at hx; cases hx
  | some s => exact ⟨s, Text.bytes_of_fromUTF8? hread⟩

/-- Truth values, integers, decimals, dates, times, timestamps, identifiers and texts are written as
text, short or large, and read back as a value that equals them. Texts are brought to bytes, few or
many, and back to themselves; bytes that become a text are brought back to themselves as well, and
so is an identifier from its bytes. -/
theorem written_forms_lossless :
    (∀ (v : Value) (target : ValueType), v.type.isLegible = true → target.isTextual = true →
      ∃ w, v.convert target = .ok w ∧ w.type = target ∧
        ∃ back, w.convert v.type = .ok back ∧ back.same v = true) ∧
    (∀ (v : Value) (target : ValueType), v.type.isTextual = true → target.isBinary = true →
      ∃ w, v.convert target = .ok w ∧ w.type = target ∧ w.convert v.type = .ok v) ∧
    (∀ (v w : Value) (target : ValueType), v.type.isBinary = true → target.isTextual = true →
      v.convert target = .ok w → w.type = target ∧ w.convert v.type = .ok v) ∧
    ∀ (u : Uuid) (target : ValueType), target.isBinary = true →
      ∃ w, (uuid u).convert target = .ok w ∧ w.type = target ∧ w.convert .uuid = .ok (uuid u) := by
  refine ⟨fun v target hv ht => ?_, fun v target hv ht => ?_, fun v w target hv ht hw => ?_,
    fun u target ht => ?_⟩
  · obtain ⟨w, hw, hholds, htype⟩ := exists_written hv ht
    exact ⟨w, hw, htype, exists_read hv hholds⟩
  · obtain ⟨s, hs⟩ := Holds.of_isTextual hv
    obtain ⟨w, hw, hcarries, htype⟩ := hs.convert_binary ht
    obtain ⟨back, hback, hholds, hsame⟩ := hcarries.convert_textual hv
    obtain rfl := hholds.eq_of_type hs hsame
    exact ⟨w, hw, htype, hback⟩
  · obtain ⟨b, hb⟩ := Carries.of_isBinary hv
    obtain ⟨s, rfl⟩ := hb.of_convert ht hw
    obtain ⟨other, hother, hholds, htype⟩ := hb.convert_textual ht
    obtain rfl := Except.ok.inj (hother.symm.trans hw)
    obtain ⟨back, hback, hcarries, hsame⟩ := hholds.convert_binary hv
    obtain rfl := hcarries.eq_of_type hb hsame
    exact ⟨htype, hback⟩
  · cases target <;> cases ht
    · refine ⟨.bytes u.bytes, rfl, rfl, ?_⟩
      change ((Value.bytes u.bytes).found .uuid (Uuid.ofBytes? u.bytes)).map Value.uuid = _
      rw [u.ofBytes?_bytes]
      rfl
    · refine ⟨.blob u.bytes, rfl, rfl, ?_⟩
      change ((Value.blob u.bytes).found .uuid (Uuid.ofBytes? u.bytes)).map Value.uuid = _
      rw [u.ofBytes?_bytes]
      rfl

/-- A leap second in a year before the first, and a letter of two bytes. -/
theorem written_forms_lossless_in_leap_second :
    let t : Calendar.Timestamp := ⟨⟨-720990, by decide, by decide⟩, ⟨86399, 1500000000, by decide⟩⟩
    (timestamp t).convert .clob = .ok (clob "-0005-12-31 23:59:60.500") ∧
      (clob "-0005-12-31 23:59:60.500").convert .timestamp = .ok (timestamp t) ∧
      (clob "é").convert .bytes = .ok (bytes [195, 169]) ∧
      (bytes [195, 169]).convert .clob = .ok (clob "é") ∧
      (clob "é").convert .blob = .ok (blob [195, 169]) := by
  intro t
  obtain ⟨hwritten, hencoded, hdecoded, -⟩ := written_forms_lossless
  have hdisplay : (timestamp t).display = "-0005-12-31 23:59:60.500" := by decide +kernel
  have hclob : (timestamp t).convert .clob = .ok (clob "-0005-12-31 23:59:60.500") := by
    rw [← hdisplay]
    rfl
  have hbytes : (clob "é").convert .bytes = .ok (bytes [195, 169]) := by
    have hencoding : "é".toUTF8.toList = [195, 169] := by decide +kernel
    rw [← hencoding]
    rfl
  obtain ⟨w, hw, -, back, hback, hsame⟩ := hwritten (timestamp t) .clob rfl rfl
  obtain rfl := Except.ok.inj (hw.symm.trans hclob)
  obtain ⟨encoded, hencoding, -, hletter⟩ := hencoded (clob "é") .bytes rfl rfl
  obtain rfl := Except.ok.inj (hencoding.symm.trans hbytes)
  obtain ⟨-, hblob⟩ := hdecoded (blob [195, 169]) (clob "é") .clob rfl rfl (by rfl)
  have hsame : back = timestamp t := by
    cases back <;> exact of_decide_eq_true hsame
  exact ⟨hclob, hsame ▸ hback, hbytes, hletter, hblob⟩

end Value

end RecordMapper
