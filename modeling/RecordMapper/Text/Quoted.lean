/-!
# Quoting by doubling

A quoted text stands between two quote characters, and a quote inside it is written twice. SQL
string literals are quoted with `'`, identifiers with `"` or, in one product, with a backtick.
-/

namespace RecordMapper.Text

def doubled (quote : Char) : List Char → List Char
  | [] => []
  | c :: rest => if c = quote then c :: c :: doubled quote rest else c :: doubled quote rest

def quoted (quote : Char) (s : String) : String :=
  String.ofList (quote :: doubled quote s.toList ++ [quote])

def literal (s : String) : String := quoted '\'' s

@[simp] theorem count_doubled (quote x : Char) (cs : List Char) :
    (doubled quote cs).count x = (if x = quote then 2 else 1) * cs.count x := by
  induction cs with
  | nil => simp [doubled]
  | cons c rest ih => by_cases h : c = quote <;> by_cases hx : x = c <;> grind [doubled]

end RecordMapper.Text
