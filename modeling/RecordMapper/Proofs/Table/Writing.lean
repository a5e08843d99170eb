import Mathlib.Data.List.TakeDrop
import RecordMapper.Proofs.Result
import RecordMapper.Table.Mapping

/-!
# What a field writes

The content of a field is encoded for its column. A field with an adapter leaves that to the adapter;
any other brings the value to the storage type of the column. What comes of it is cut, if it is a
text that is too long for a trimming column.
-/

set_option autoImplicit false

namespace RecordMapper

/-- The value is a text that a trimming column shortens. -/
def Column.Cuts (c : Column) (v : Value) : Prop :=
  c.trim = true ∧ ∃ n s, c.length = some n ∧ v.string? = some s ∧ n < s.length

namespace FieldMapping

theorem ofList_take_eq_iff (s : String) (n : Nat) :
    String.ofList (s.toList.take n) = s ↔ ¬ n < s.length := by
  rw [← String.toList_inj, String.toList_ofList, List.take_eq_self_iff, String.length_toList,
    Nat.not_lt]

theorem trimmed_eq_iff (c : Column) (v : Value) : trimmed c v = v ↔ ¬ c.Cuts v := by
  have hstring (s : String) (hs : v.string? = some s) : v = .text s ∨ v = .clob s := by
    cases v <;> simp_all [Value.string?]
  unfold trimmed
  split
  · next htrim hlength => simp [Column.Cuts, htrim, hlength, Value.string?, ofList_take_eq_iff]
  · next htrim hlength => simp [Column.Cuts, htrim, hlength, Value.string?, ofList_take_eq_iff]
  · next htext hclob =>
    refine iff_of_true rfl ?_
    rintro ⟨htrim, n, s, hlength, hs, -⟩
    rcases hstring s hs with h | h
    · exact htext n s htrim hlength h
    · exact hclob n s htrim hlength h

theorem get_eq_trimmed {f : FieldMapping} {r : Record} {raw stored : Value}
    (hraw : (r.get f.slot).toValue f.column.context = .ok raw) (hadapter : f.adapter = none)
    (hstored : raw.convertToSql f.column.sqlType = .ok stored) :
    f.get r = .ok (trimmed f.column stored) := by
  rw [get, hraw, hadapter]
  change (raw.convertToSql f.column.sqlType >>= fun stored => _) = _
  rw [hstored]
  rfl

theorem get_eq_adapted {f : FieldMapping} {r : Record} {raw : Value} {adapter : Adapter}
    (hraw : (r.get f.slot).toValue f.column.context = .ok raw)
    (hadapter : f.adapter = some adapter) :
    f.get r = (adapter.toColumn raw).map (trimmed f.column) := by
  rw [get, hraw, hadapter]
  change (adapter.toColumn raw >>= fun stored => _) = _
  cases adapter.toColumn raw <;> rfl

theorem exists_of_get_eq_ok {f : FieldMapping} {r : Record} {v : Value} (hadapter : f.adapter = none)
    (h : f.get r = .ok v) :
    ∃ raw stored, (r.get f.slot).toValue f.column.context = .ok raw ∧
      raw.convertToSql f.column.sqlType = .ok stored ∧ trimmed f.column stored = v := by
  rw [get, hadapter] at h
  obtain ⟨raw, hraw, h⟩ := Result.bind_eq_ok_iff.mp h
  obtain ⟨stored, hstored, h⟩ := Result.bind_eq_ok_iff.mp h
  exact ⟨raw, stored, hraw, hstored, Except.ok.inj h⟩

end FieldMapping

end RecordMapper
