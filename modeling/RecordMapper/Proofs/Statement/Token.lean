import RecordMapper.Proofs.Statement.Scanner

/-!
# The tokens of a statement

Where the names and the values of a statement are read back, letters make words, blanks are skipped,
and every other character is a mark. Numbers are not told apart.
-/

set_option autoImplicit false

namespace RecordMapper

inductive Token
  | word (s : String)
  | quoted (quote : Char) (s : String)
  | value (v : Value)
  | mark (c : Char)
deriving DecidableEq

namespace Token

/-- Of a quoted text that is never closed the quote is left. Whatever is no quote may stand behind
a quoted text. -/
def scanner : Scanner Unit Token where
  begun? c := if c.isAlpha then some () else none
  continued? _ _ c := if c.isAlpha then some () else none
  single? c := if c.isAlpha || c = ' ' then none else some (.mark c)
  run _ s := .word s
  quoted := .quoted
  unclosed := .mark
  param := .value
  breaks
    | .char c => !SqlText.isQuote c
    | .param _ => true
  isQuote_of_breaks _ h := by rwa [Bool.not_eq_true'] at h

abbrev Spells (a : List Atom) (ts : List Token) : Prop := scanner.Spells a ts

abbrev Delimited (a : List Atom) (ts : List Token) : Prop := scanner.Delimited a ts

end Token

def Statement.tokens (s : Statement) : List Token := Token.scanner.read .outside s.atoms

namespace Sql

/-- What a tidy body is read as is seen from its fragments. -/
theorem Tidy.tokens_eq {s : Statement} (h : s.body.Tidy) :
    s.tokens = Token.scanner.read .outside s.body.atoms := by
  rw [Statement.tokens, h.atoms_eq]

/-- The tokens of the items with one separating token between any two. -/
def listed (separator : Token) (items : List (List Token)) : List Token :=
  [separator].intercalate items

end Sql

end RecordMapper
