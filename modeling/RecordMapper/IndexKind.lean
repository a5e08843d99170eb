/-!
# Kinds of indexes

An index may enforce uniqueness, and it may be asked to be a hash index.
-/

set_option autoImplicit false

namespace RecordMapper

inductive IndexKind
  | standard
  | unique
  | hash
  | uniqueHash
deriving DecidableEq, Repr

namespace IndexKind

def isUnique : IndexKind → Bool
  | unique | uniqueHash => true
  | standard | hash => false

def isHash : IndexKind → Bool
  | hash | uniqueHash => true
  | standard | unique => false

def withoutHash : IndexKind → IndexKind
  | standard | hash => standard
  | unique | uniqueHash => unique

@[simp] theorem isUnique_withoutHash (kind : IndexKind) :
    kind.withoutHash.isUnique = kind.isUnique := by
  cases kind <;> rfl

@[simp] theorem isHash_withoutHash (kind : IndexKind) : kind.withoutHash.isHash = false := by
  cases kind <;> rfl

end IndexKind

end RecordMapper
