import RecordMapper.Table.Mapping

/-!
# Sealing a mapping

A described mapping is checked and completed: there are columns, no two of them have the same
name, and the names in the key and in the indexes are names of columns. Where no key is listed the
flagged columns make up the key; where one is listed, it has to hold every flagged column.
-/

set_option autoImplicit false

namespace RecordMapper

/-- The first name that has been used before, up to case. -/
def firstDuplicate? (seen : List String) : List String → Option String
  | [] => none
  | name :: rest =>
    if seen.any (Text.sameLetters · name) then some name else firstDuplicate? (name :: seen) rest

namespace Mapping

def withColumns (m : Mapping) : Mapping :=
  { m with table.columns := m.fields.map (·.column) }

/-- The flagged columns, where no key is listed. -/
def flaggedKey (m : Mapping) : List String :=
  (m.fields.filter (·.column.primaryKey)).map (·.column.name)

/-- The first flagged column that the listed key leaves out. -/
def unlisted? (m : Mapping) : Option String :=
  let listed := m.table.primaryKey.map m.table.columnIndex?
  let flagged := m.fields.zipIdx.filter fun (f, i) => f.column.primaryKey && !listed.contains (some i)
  (flagged.map fun (f, _) => f.column.name).head?

def markKey (m : Mapping) (i : Nat) : Mapping :=
  { m with fields := m.fields.modify i fun f =>
      { f with column.primaryKey := true, column.nullable := false } }

def positions (m : Mapping) (missing : String → Error) (names : List String) : Result (List Nat) :=
  names.mapM fun name =>
    match m.table.columnIndex? name with
    | some i => .ok i
    | none => .error (missing name)

def nameAt (m : Mapping) (i : Nat) : String := ((m.fields[i]?).map (·.column.name)).getD ""

/-- The index with a name, and with the columns under their own names; `n` is its number. -/
def completeIndex (m : Mapping) (typeName : String) (i : Index) (n : Nat) : Result Index := do
  if i.columns.isEmpty then throw (.unsupportedModel typeName .emptyIndex)
  let name := if i.name = "" then m.table.name ++ "_" ++ Numeral.ofNat n else i.name
  let missing column := .unsupportedModel typeName (.unknownIndexColumn name column)
  let positions ← m.positions missing i.columns
  return { i with name, columns := positions.map m.nameAt }

def sealed (m : Mapping) (typeName : String) : Result Mapping := do
  let fail (fault : ModelFault) : Result Mapping := .error (.unsupportedModel typeName fault)
  if m.fields.isEmpty then return ← fail .noFields
  if let some name := firstDuplicate? [] (m.fields.map (·.column.name)) then
    return ← fail (.duplicateColumn name)
  let m := m.withColumns
  if !m.table.primaryKey.isEmpty then
    if let some name := m.unlisted? then return ← fail (.unlistedKey name)
  let key := if m.table.primaryKey.isEmpty then m.flaggedKey else m.table.primaryKey
  let positions ← m.positions (fun name => .unsupportedModel typeName (.unknownKey name)) key
  let keyed := positions.foldl markKey m
  let indexes ← m.table.indexes.zipIdx.mapM fun (i, n) => m.completeIndex typeName i n
  return { keyed with
    table.primaryKey := positions.map m.nameAt
    table.indexes := indexes }.withColumns

end Mapping

end RecordMapper
