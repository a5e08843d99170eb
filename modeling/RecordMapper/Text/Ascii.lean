/-!
# ASCII case and search

Names of databases, columns and enumeration members are compared without regard to the case
of ASCII letters. Letters outside ASCII are left alone: `É` and `é` are different here.
-/

namespace RecordMapper.Text

def lower (s : String) : String := String.ofList (s.toList.map Char.toLower)

def upper (s : String) : String := String.ofList (s.toList.map Char.toUpper)

/-- Equality up to the case of ASCII letters. -/
def sameLetters (a b : String) : Bool := a.toList.map Char.toLower == b.toList.map Char.toLower

def occursIn (needle : List Char) : List Char → Bool
  | [] => needle.isEmpty
  | c :: rest => needle.isPrefixOf (c :: rest) || occursIn needle rest

@[simp] theorem sameLetters_refl (a : String) : sameLetters a a = true := by simp [sameLetters]

theorem sameLetters_comm (a b : String) : sameLetters a b = sameLetters b a := by
  simp only [sameLetters, Bool.beq_comm]

theorem sameLetters_trans {a b c : String} (hab : sameLetters a b = true)
    (hbc : sameLetters b c = true) : sameLetters a c = true := by
  simp only [sameLetters, beq_iff_eq] at *
  exact hab.trans hbc

end RecordMapper.Text
