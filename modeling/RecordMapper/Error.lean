import RecordMapper.Value.Basic

/-!
# Errors

Every failure is recorded as its cause; `Error.message` holds the wording. A failure that a
connection reports is sorted by its own kind and by the state code of the SQL standard.
-/

set_option autoImplicit false

namespace RecordMapper

inductive ModelFault
  | severalBooleans
  | noFields
  | duplicateColumn (column : String)
  | unlistedKey (column : String)
  | unknownKey (column : String)
  | emptyIndex
  | unknownIndexColumn (index column : String)
  | arity (expected given : Nat)
  | keyNeeded (operation : String)
  | keyMissing (column : String)
  | onlyKeyColumns
  | noAssignments
deriving DecidableEq, Repr

inductive FieldFault
  /-- The argument was a sentinel of the generation before; `key` names it. -/
  | stale (key : String)
  | notOfTable (table : String)
  | notInQuery (table column : String)
  | notAColumn (table : String)
  | unknownVariable (name : String)
  | noJoin
  | refused (reason : String)
deriving DecidableEq, Repr

inductive ConversionTarget
  | type (type : ValueType)
  | enumeration (name : String)
  | ordinal
  | customId (enumeration : String)
deriving DecidableEq, Repr

inductive Feature
  | hashIndexes
  | wideHashIndexes
  | limitOffset
  | offsetFetch
  | merge
  | joins (statement : String)
deriving DecidableEq, Repr

inductive SentinelFault
  | nullType
  | counterOutOfRange
  | typeWithoutSentinel
  | noMembers
  | noDistinctValue
deriving DecidableEq, Repr

inductive Error
  | unsupportedModel (model : String) (fault : ModelFault)
  | unmappedField (fault : FieldFault)
  | unconvertible (value : String) (source : ValueType) (target : ConversionTarget)
  | unsupportedFeature (dialect : String) (feature : Feature)
  | duplicateKey (message : String)
  | constraintViolation (message : String)
  | noSentinel (subject : String) (fault : SentinelFault)
  | execution (message : String) (sqlState : Option String)
deriving DecidableEq, Repr

abbrev Result := Except Error

def ModelFault.reason : ModelFault → String
  | severalBooleans =>
    "more than one primitive bool field; declare the others as Option<bool>"
  | noFields => "no persisted fields"
  | duplicateColumn column => "duplicate column " ++ column
  | unlistedKey column =>
    "column " ++ column ++ " is flagged as primary key but not in the primary key list"
  | unknownKey column => "primary key column " ++ column ++ " does not exist"
  | emptyIndex => "index without columns"
  | unknownIndexColumn index column =>
    "index " ++ index ++ " references unknown column " ++ column
  | arity expected given =>
    "expected " ++ Numeral.ofNat expected ++ " values, got " ++ Numeral.ofNat given
  | keyNeeded operation => operation ++ " needs a primary key"
  | keyMissing column => "primary key column " ++ column ++ " is missing"
  | onlyKeyColumns => "no columns outside the primary key to update"
  | noAssignments => "update needs at least one set()"

def FieldFault.reason : FieldFault → String
  | stale key => key ++ " is a sentinel of an earlier alias generation"
  | notOfTable table => "argument is not a mapped field of " ++ table
  | notInQuery table column => table ++ "." ++ column ++ " is not a column of this query"
  | notAColumn table => "argument is not a column of a table in this query (" ++ table ++ ")"
  | unknownVariable name => name ++ " is neither a column nor a bound value"
  | noJoin => "ON without a join"
  | refused reason => reason

def ConversionTarget.name : ConversionTarget → String
  | type t => t.name
  | enumeration name => name
  | ordinal => "ordinal"
  | customId name => name ++ " custom id"

def Feature.name : Feature → String
  | hashIndexes => "hash indexes"
  | wideHashIndexes => "multi-column hash indexes"
  | limitOffset => "LIMIT/OFFSET"
  | offsetFetch => "OFFSET/FETCH paging"
  | merge => "merge"
  | joins statement => "joins in " ++ statement

def SentinelFault.reason : SentinelFault → String
  | nullType => "no sentinel exists for NULL"
  | counterOutOfRange => "counter out of range"
  | typeWithoutSentinel =>
    "type has no sentinel; implement FieldType::sentinel (see sentinel::by_default)"
  | noMembers => "enum has no members"
  | noDistinctValue => "cannot find a distinct sentinel value"

namespace Error

def message : Error → String
  | unsupportedModel model fault => "Unsupported model " ++ model ++ ": " ++ fault.reason
  | unmappedField fault => "Unmapped field: " ++ fault.reason
  | unconvertible value source target =>
    "Cannot convert " ++ value ++ " from " ++ source.name ++ " to " ++ target.name
  | unsupportedFeature dialect feature => dialect ++ " does not support " ++ feature.name
  | duplicateKey message => "Duplicate key: " ++ message
  | constraintViolation message => "Constraint violation: " ++ message
  | noSentinel subject fault => "Cannot construct " ++ subject ++ ": " ++ fault.reason
  | execution message _ => "Execution error: " ++ message

/-- Whether the database rejected the statement because of a constraint. -/
def isConstraintViolation : Error → Bool
  | duplicateKey _ | constraintViolation _ => true
  | _ => false

end Error

inductive DriverErrorKind
  | uniqueViolation
  | constraintViolation
  | other
deriving DecidableEq, Repr

structure DriverError where
  message : String
  sqlState : Option String := none
  kind : DriverErrorKind := .other
deriving DecidableEq, Repr

namespace DriverError

def display (e : DriverError) : String :=
  match e.sqlState with
  | some state => "[" ++ state ++ "] " ++ e.message
  | none => e.message

/-- State `23505` is a unique violation and every other state of class `23` a constraint
violation, unless the connection itself knows better. -/
def settledKind (e : DriverError) : DriverErrorKind :=
  if e.kind = .uniqueViolation ∨ e.sqlState = some "23505" then .uniqueViolation
  else if e.kind = .constraintViolation ∨
      e.sqlState.any (fun state => "23".toList.isPrefixOf state.toList) then .constraintViolation
  else .other

def toError (e : DriverError) : Error :=
  match e.settledKind with
  | .uniqueViolation => .duplicateKey e.message
  | .constraintViolation => .constraintViolation e.message
  | .other => .execution e.message e.sqlState

end DriverError

end RecordMapper
