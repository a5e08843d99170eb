import RecordMapper.Calendar.Format
import RecordMapper.Proofs.Calendar.Civil
import RecordMapper.Proofs.Numeral
import RecordMapper.Proofs.Text.Blank

/-!
# Dates and times that are read back

What a format prints it also reads. Every item reads what it has printed and leaves the rest, as
long as the rest does not go on with what the item takes: digits behind a year or a fraction,
blanks behind a blank. Items of two digits always take both and need no such care.
-/

set_option autoImplicit false

namespace RecordMapper.Calendar

open Numeral

variable {rest : List Char}

/-- The digits of a padded number. There are exactly as many as the width says, if they are enough
for the number. -/
theorem exists_padded (width n : Nat) : ∃ digits, padded width n = chars digits ∧
    digits ≠ [] ∧ (∀ d ∈ digits, d < 10) ∧ value 10 digits = n ∧
      (0 < width → n < 10 ^ width → digits.length = width) := by
  refine ⟨List.replicate (width - (decimal n).length) 0 ++ decimal n, rfl, ?_, ?_, ?_, ?_⟩
  · exact fun h => decimal_ne_nil n (List.append_eq_nil_iff.mp h).2
  · intro d hd
    rcases List.mem_append.mp hd with hd | hd
    · rw [List.eq_of_mem_replicate hd]
      decide
    · exact lt_of_mem_decimal hd
  · rw [value_append, value_replicate_zero, value_decimal, Nat.zero_mul, Nat.zero_add]
  · intro hwidth hn
    have hle := length_decimal_le hwidth hn
    rw [List.length_append, List.length_replicate]
    omega

theorem readDigits_chars {most : Nat} {digits : List Nat} (hne : digits ≠ [])
    (hdigits : ∀ d ∈ digits, d < 10) (hmost : digits.length ≤ most)
    (hstop : digits.length = most ∨ ∀ c ∈ rest.head?, isDigit c = false) :
    readDigits most (chars digits ++ rest) = some (value 10 digits, rest) := by
  have hrest : ∀ c ∈ (rest.take (most - (chars digits).length)).head?, isDigit c = false := by
    rw [length_chars]
    rcases hstop with hfull | hstop
    · rw [hfull, Nat.sub_self, List.take_zero]
      nofun
    · intro c hc
      rw [List.head?_take] at hc
      split at hc
      · cases hc
      · exact hstop c hc
  have htake : ((chars digits ++ rest).take most).takeWhile isDigit = chars digits := by
    rw [List.take_append, List.take_of_length_le (by rw [length_chars]; exact hmost)]
    exact (takeWhile_isDigit_append (fun c hc => isDigit_of_mem_chars hdigits hc) hrest).1
  rw [readDigits, htake, natural?_chars hne hdigits, List.drop_left]
  rfl

theorem head?_chars_append {digits : List Nat} (hne : digits ≠ [])
    (hdigits : ∀ d ∈ digits, d < 10) {c : Char} (hc : c ∈ (chars digits ++ rest).head?) :
    isDigit c = true := by
  rw [List.head?_append_of_ne_nil _ (fun h => hne (chars_eq_nil_iff.mp h))] at hc
  exact isDigit_of_mem_chars hdigits (List.mem_of_head? hc)

theorem readNumber_padded {n : Nat} (h : n < 100) :
    readNumber (padded 2 n ++ rest) = some (n, rest) := by
  obtain ⟨digits, hpadded, hne, hdigits, hvalue, hlength⟩ := exists_padded 2 n
  have htwo := hlength (by decide) h
  rw [readNumber, hpadded,
    Text.skipBlanks_of_head fun c hc => isBlank_of_isDigit (head?_chars_append hne hdigits hc),
    readDigits_chars hne hdigits (Nat.le_of_eq htwo) (.inl htwo), hvalue]

/-- Behind a sign all digits are read. -/
theorem readDigits_signed {n : Nat} (hrest : ∀ c ∈ rest.head?, isDigit c = false) :
    readDigits (padded 4 n ++ rest).length (padded 4 n ++ rest) = some (n, rest) := by
  obtain ⟨digits, hpadded, hne, hdigits, hvalue, -⟩ := exists_padded 4 n
  rw [hpadded, readDigits_chars hne hdigits _ (.inr hrest), hvalue]
  rw [List.length_append, length_chars]
  exact Nat.le_add_right _ _

theorem readYear_of_isDigit {c : Char} {cs : List Char} (h : isDigit c = true) :
    readYear (c :: cs) = (readDigits 4 (c :: cs)).map fun (n, rest) => ((n : Int), rest) := by
  have hskip : Text.skipBlanks (c :: cs) = c :: cs :=
    Text.skipBlanks_of_head fun d hd => by
      obtain rfl := Option.some.inj hd
      exact isBlank_of_isDigit h
  unfold readYear
  rw [hskip]
  split
  · next heq =>
    rw [(List.cons.inj heq).1] at h
    cases h
  · next heq =>
    rw [(List.cons.inj heq).1] at h
    cases h
  · rfl

theorem readYear_printYear {year : Int} (hrest : ∀ c ∈ rest.head?, isDigit c = false) :
    readYear (printYear year ++ rest) = some (year, rest) := by
  unfold printYear
  split
  · next hneg =>
    change (readDigits (padded 4 year.natAbs ++ rest).length (padded 4 year.natAbs ++ rest)).map _ = _
    rw [readDigits_signed hrest]
    exact congrArg (fun n => some (n, rest)) (by omega : -(year.natAbs : Int) = year)
  · next hpos =>
    split
    · next hshort =>
      obtain ⟨digits, hpadded, hne, hdigits, hvalue, hlength⟩ := exists_padded 4 year.natAbs
      have hfour := hlength (by decide) (by omega)
      have hread : readDigits 4 (padded 4 year.natAbs ++ rest) = some (value 10 digits, rest) := by
        rw [hpadded]
        exact readDigits_chars hne hdigits (Nat.le_of_eq hfour) (.inl hfour)
      cases hcs : padded 4 year.natAbs with
      | nil => exact absurd (chars_eq_nil_iff.mp (hpadded.symm.trans hcs)) hne
      | cons c cs =>
        have hdigit : isDigit c = true :=
          isDigit_of_mem_chars hdigits (hpadded ▸ hcs ▸ List.mem_cons_self)
        rw [hcs, List.cons_append] at hread
        rw [List.cons_append, readYear_of_isDigit hdigit, hread, hvalue]
        exact congrArg (fun n => some (n, rest)) (by omega : (year.natAbs : Int) = year)
    · next hlong =>
      change (readDigits (padded 4 year.natAbs ++ rest).length
        (padded 4 year.natAbs ++ rest)).map _ = _
      rw [readDigits_signed hrest]
      exact congrArg (fun n => some (n, rest)) (by omega : (year.natAbs : Int) = year)

theorem readFraction_fixed {width n : Nat} (hwidth : 0 < width ∧ width ≤ 9) (hn : n < 10 ^ width)
    (hrest : ∀ c ∈ rest.head?, isDigit c = false) :
    readFraction ('.' :: chars (fixed 10 width n) ++ rest) =
      some (n * 10 ^ (9 - width), rest) := by
  have hdigits : ∀ d ∈ fixed 10 width n, d < 10 := fun d hd => lt_of_mem_fixed (by decide) hd
  have hlength : (chars (fixed 10 width n)).length = width := by rw [length_chars, length_fixed]
  have hne : fixed 10 width n ≠ [] := by
    intro h
    rw [h] at hlength
    exact absurd hlength (Nat.ne_of_lt hwidth.1)
  have hall : ∀ c ∈ chars (fixed 10 width n), isDigit c = true :=
    fun c hc => isDigit_of_mem_chars hdigits hc
  have htake := (takeWhile_isDigit_append hall hrest).1
  rw [List.cons_append, readFraction, htake, List.take_of_length_le (by omega),
    natural?_chars hne hdigits, value_fixed, List.drop_left, hlength]
  exact congrArg (fun k => some (k * 10 ^ (9 - width), rest)) (Nat.mod_eq_of_lt hn)

/-- The digits that are left out are zeros. -/
theorem readFraction_printFraction (n : Nat)
    (hrest : ∀ c ∈ rest.head?, isDigit c = false ∧ c ≠ '.') :
    readFraction (printFraction n ++ rest) = some (n % 1000000000, rest) := by
  have hdigit : ∀ c ∈ rest.head?, isDigit c = false := fun c hc => (hrest c hc).1
  have hfixed {width k : Nat} (hwidth : 0 < width ∧ width ≤ 9) (hk : k < 10 ^ width)
      (hn : k * 10 ^ (9 - width) = n % 1000000000) :
      readFraction ((if (fixed 10 width k).isEmpty then []
        else '.' :: chars (fixed 10 width k)) ++ rest) = some (n % 1000000000, rest) := by
    have hne : (fixed 10 width k).isEmpty = false := by
      rw [List.isEmpty_eq_false_iff, ← List.length_pos_iff, length_fixed]
      exact hwidth.1
    rw [hne, if_neg Bool.false_ne_true, readFraction_fixed hwidth hk hdigit, hn]
  unfold printFraction
  dsimp only
  split
  · next hzero =>
    rw [hzero]
    change readFraction rest = _
    unfold readFraction
    split
    · exact absurd rfl (hrest _ rfl).2
    · rfl
  · split
    · exact hfixed (by decide) (by omega) (by omega)
    · split
      · exact hfixed (by decide) (by omega) (by omega)
      · exact hfixed (by decide) (by omega) (by omega)

/-- The fields read so far with the one that the item prints. -/
def Item.fill (t : Timestamp) (r : Reading) : Item → Reading
  | .year => { r with civil.year := t.date.civil.year }
  | .month => { r with civil.month := t.date.civil.month }
  | .day => { r with civil.day := t.date.civil.day }
  | .hour => { r with hour := t.time.hour }
  | .minute => { r with minute := t.time.minute }
  | .second => { r with second := t.time.clockSecond }
  | .fraction => { r with nanosecond := t.time.nanosecond % 1000000000 }
  | .mark _ | .blank => r

/-- What comes next does not go on with what the item takes. -/
def Item.Stops (rest : List Char) : Item → Prop
  | .year => ∀ c ∈ rest.head?, isDigit c = false
  | .fraction => ∀ c ∈ rest.head?, isDigit c = false ∧ c ≠ '.'
  | .blank => ∀ c ∈ rest.head?, Text.isBlank c = false
  | _ => True

theorem Time.clock_lt (t : Time) : t.hour < 24 ∧ t.minute < 60 ∧ t.clockSecond ≤ 60 := by
  have hvalid := t.valid
  unfold hour minute clockSecond
  omega

theorem Item.read_print {item : Item} (h : item.Stops rest) (t : Timestamp) (r : Reading) :
    item.read r (item.print t ++ rest) = some (item.fill t r, rest) := by
  obtain ⟨hmonth, hday⟩ := t.date.civil_month_day
  obtain ⟨hhour, hminute, hsecond⟩ := t.time.clock_lt
  cases item with
  | year => rw [read, print, readYear_printYear h]; rfl
  | month => rw [read, print, readNumber_padded (by omega)]; rfl
  | day => rw [read, print, readNumber_padded (by omega)]; rfl
  | hour => rw [read, print, readNumber_padded (by omega)]; rfl
  | minute => rw [read, print, readNumber_padded (by omega)]; rfl
  | second => rw [read, print, readNumber_padded (by omega)]; rfl
  | fraction => rw [read, print, readFraction_printFraction _ h]; rfl
  | mark c => exact if_pos rfl
  | blank =>
    have hskip : Text.skipBlanks ([' '] ++ rest) = rest :=
      Text.skipBlanks_append (fun c hc => by rw [List.mem_singleton.mp hc]; decide) h
    rw [read, print, hskip, fill]

/-- Each item can be told from what is printed behind it. -/
def Format.IsDelimited (t : Timestamp) : Format → Prop
  | [] => True
  | item :: items => item.Stops (items.flatMap (·.print t)) ∧ IsDelimited t items

theorem Format.readFrom_print {format : Format} {t : Timestamp} (h : format.IsDelimited t)
    (r : Reading) :
    format.readFrom r (format.flatMap (·.print t)) = some (format.foldl (Item.fill t) r) := by
  induction format generalizing r with
  | nil => rfl
  | cons item items ih =>
    rw [List.flatMap_cons, readFrom, Item.read_print h.1]
    exact ih h.2 _

theorem Format.read_print {format : Format} {t : Timestamp} (h : format.IsDelimited t) :
    format.read (format.print t).toList = some (format.foldl (Item.fill t) {}) := by
  rw [print, String.toList_ofList, read, readFrom_print h]

theorem head?_padded_append {width n : Nat} {c : Char} (hc : c ∈ (padded width n ++ rest).head?) :
    Text.isBlank c = false := by
  obtain ⟨digits, hpadded, hne, hdigits, -⟩ := exists_padded width n
  rw [hpadded] at hc
  exact isBlank_of_isDigit (head?_chars_append hne hdigits hc)

theorem isDelimited_date (t : Timestamp) : Format.date.IsDelimited t :=
  ⟨fun c hc => by obtain rfl := Option.some.inj hc; rfl, trivial, trivial, trivial, trivial, trivial⟩

theorem isDelimited_time (t : Timestamp) : Format.time.IsDelimited t :=
  ⟨trivial, trivial, trivial, trivial, trivial, nofun, trivial⟩

theorem isDelimited_timestamp (t : Timestamp) : Format.timestamp.IsDelimited t :=
  ⟨fun c hc => by obtain rfl := Option.some.inj hc; rfl, trivial, trivial, trivial, trivial,
    fun _ hc => head?_padded_append hc, isDelimited_time t⟩

/-- A clock with the fields of a time shows that time, also in a leap second. -/
@[simp] theorem Time.ofClock?_fields (t : Time) :
    ofClock? t.hour t.minute t.clockSecond (t.nanosecond % 1000000000) = some t := by
  obtain ⟨second, nanosecond, hvalid⟩ := t
  have hpart : nanosecond % 1000000000 < 1000000000 := by omega
  obtain ⟨hhour, hminute, hsecond⟩ := clock_lt ⟨second, nanosecond, hvalid⟩
  rw [ofClock?, if_pos ⟨hhour, hminute, hsecond, hpart⟩]
  split
  · next hleap =>
    simp only [clockSecond] at hleap
    simp only [hour, minute]
    have hsum : second / 3600 * 3600 + second / 60 % 60 * 60 + 59 = second := by omega
    have hnanos : nanosecond % 1000000000 + 1000000000 = nanosecond := by omega
    rw [hsum, hnanos]
    exact dif_pos hvalid
  · next hplain =>
    simp only [clockSecond] at hplain
    simp only [hour, minute, clockSecond]
    have hnanos : nanosecond % 1000000000 = nanosecond := by omega
    have hsum : second / 3600 * 3600 + second / 60 % 60 * 60 +
        (second % 60 + nanosecond / 1000000000) = second := by omega
    rw [hsum, hnanos]
    exact dif_pos hvalid

@[simp] theorem Date.ofText?_text (d : Date) : ofText? d.text.toList = some d := by
  rw [ofText?, text, Format.read_print (isDelimited_date _)]
  exact d.ofCivil?_civil

@[simp] theorem Time.ofText?_text (t : Time) : ofText? t.text.toList = some t := by
  have hread : (Format.time.read t.text.toList).bind (·.time?) = some t := by
    rw [text, Format.read_print (isDelimited_time _)]
    exact t.ofClock?_fields
  rw [ofText?, List.findSome?_cons, hread]

@[simp] theorem Timestamp.ofText?_text (t : Timestamp) : ofText? t.text.toList = some t := by
  have hread : (Format.timestamp.read t.text.toList).bind (·.timestamp?) = some t := by
    rw [text, Format.read_print (isDelimited_timestamp _)]
    change (do return ⟨← Date.ofCivil? t.date.civil, ← Time.ofClock? t.time.hour t.time.minute
      t.time.clockSecond (t.time.nanosecond % 1000000000)⟩ : Option Timestamp) = some t
    rw [t.date.ofCivil?_civil, t.time.ofClock?_fields]
    rfl
  rw [ofText?, Format.timestamps, List.findSome?_cons, hread]

/-- Items other than a blank print no blanks; marks are none either in the formats in use. -/
def Item.IsBare : Item → Bool
  | .mark c => !Text.isBlank c
  | .blank => false
  | _ => true

theorem isBlank_of_mem_padded {width n : Nat} {c : Char} (hc : c ∈ padded width n) :
    Text.isBlank c = false := by
  obtain ⟨digits, hpadded, -, hdigits, -⟩ := exists_padded width n
  rw [hpadded] at hc
  exact isBlank_of_isDigit (isDigit_of_mem_chars hdigits hc)

theorem isBlank_of_mem_printYear {year : Int} {c : Char} (hc : c ∈ printYear year) :
    Text.isBlank c = false := by
  unfold printYear at hc
  split at hc
  · rcases List.mem_cons.mp hc with rfl | hc
    · rfl
    · exact isBlank_of_mem_padded hc
  · split at hc
    · exact isBlank_of_mem_padded hc
    · rcases List.mem_cons.mp hc with rfl | hc
      · rfl
      · exact isBlank_of_mem_padded hc

theorem isBlank_of_mem_printFraction {n : Nat} {c : Char} (hc : c ∈ printFraction n) :
    Text.isBlank c = false := by
  have hfixed {width k : Nat} (hc : c ∈ (if (fixed 10 width k).isEmpty then []
      else '.' :: chars (fixed 10 width k))) : Text.isBlank c = false := by
    split at hc
    · cases hc
    · rcases List.mem_cons.mp hc with rfl | hc
      · rfl
      · exact isBlank_of_isDigit
          (isDigit_of_mem_chars (fun d hd => lt_of_mem_fixed (by decide) hd) hc)
  unfold printFraction at hc
  dsimp only at hc
  split at hc
  · cases hc
  · split at hc
    · exact hfixed hc
    · split at hc
      · exact hfixed hc
      · exact hfixed hc

theorem Item.isBlank_of_mem_print {item : Item} (h : item.IsBare = true) {t : Timestamp} {c : Char}
    (hc : c ∈ item.print t) : Text.isBlank c = false := by
  cases item with
  | year => exact isBlank_of_mem_printYear hc
  | fraction => exact isBlank_of_mem_printFraction hc
  | mark mark =>
    obtain rfl := List.mem_singleton.mp hc
    exact Bool.not_eq_true' _ ▸ h
  | blank => cases h
  | month | day | hour | minute | second => exact isBlank_of_mem_padded hc

theorem Format.isTrimmed_print {format : Format} (h : ∀ item ∈ format, item.IsBare = true)
    {t : Timestamp} (hne : format.flatMap (·.print t) ≠ []) :
    Text.IsTrimmed (format.flatMap (·.print t)) := by
  refine .of_forall hne fun c hc => ?_
  obtain ⟨item, hitem, hc⟩ := List.mem_flatMap.mp hc
  exact Item.isBlank_of_mem_print (h item hitem) hc

theorem isTrimmed_printDate (t : Timestamp) :
    Text.IsTrimmed (Format.date.flatMap (·.print t)) := by
  refine Format.isTrimmed_print (by decide) fun h => ?_
  simp [Format.date, Item.print] at h

theorem isTrimmed_printTime (t : Timestamp) :
    Text.IsTrimmed (Format.time.flatMap (·.print t)) := by
  refine Format.isTrimmed_print (by decide) fun h => ?_
  simp [Format.time, Format.minutes, Item.print] at h

theorem Date.isTrimmed_text (d : Date) : Text.IsTrimmed d.text.toList := by
  rw [text, Format.print, String.toList_ofList]
  exact isTrimmed_printDate _

theorem Time.isTrimmed_text (t : Time) : Text.IsTrimmed t.text.toList := by
  rw [text, Format.print, String.toList_ofList]
  exact isTrimmed_printTime _

theorem Timestamp.isTrimmed_text (t : Timestamp) : Text.IsTrimmed t.text.toList := by
  rw [text, Format.print, String.toList_ofList, Format.timestamp, List.flatMap_append,
    List.flatMap_cons]
  exact (isTrimmed_printDate t).append _ (isTrimmed_printTime t)

end RecordMapper.Calendar
