import RecordMapper.Dialect.Basic

/-!
# The dialects of the products

Each product's decisions, and the type names it uses. What a product does not decide otherwise is
as in the standard.
-/

set_option autoImplicit false

namespace RecordMapper.Dialect

/-- `VARCHAR` and `DECIMAL` with their lengths, all other types by their standard names. -/
def standardType (c : Column) : String :=
  match c.sqlType, c.length, c.scale with
  | .varchar, some length, _ => "VARCHAR(" ++ Numeral.ofNat length ++ ")"
  | .decimal, some precision, some scale =>
    "DECIMAL(" ++ Numeral.ofNat precision ++ "," ++ Numeral.ofNat scale ++ ")"
  | .decimal, some precision, none => "DECIMAL(" ++ Numeral.ofNat precision ++ ")"
  | type, _, _ => type.name

def h2Type (c : Column) : String :=
  match c.sqlType with
  | .double => "DOUBLE PRECISION"
  | _ => standardType c

def mySqlType (c : Column) : String :=
  match c.sqlType, c.length with
  | .varchar, none => "VARCHAR(255)"
  | .clob, _ => "TEXT"
  | .uuid, _ => "CHAR(36)"
  | .timestamp, _ => "DATETIME"
  | _, _ => standardType c

def postgreSqlType (c : Column) : String :=
  match c.sqlType, c.autoIncrement with
  | .tinyInt, true | .smallInt, true | .integer, true => "SERIAL"
  | .bigInt, true => "BIGSERIAL"
  | .tinyInt, _ => "SMALLINT"
  | .double, _ => "DOUBLE PRECISION"
  | .blob, _ => "BYTEA"
  | .clob, _ => "TEXT"
  | _, _ => standardType c

def sqliteType (c : Column) : String :=
  match c.sqlType with
  | .boolean | .tinyInt | .smallInt | .integer | .bigInt => "INTEGER"
  | .real | .double => "REAL"
  | .decimal => "NUMERIC"
  | .blob => "BLOB"
  | .varchar | .clob | .date | .time | .timestamp | .uuid => "TEXT"

def derbyType (c : Column) : String :=
  match c.sqlType, c.length with
  | .tinyInt, _ => "SMALLINT"
  | .uuid, _ => "CHAR(36)"
  | .varchar, none => "VARCHAR(255)"
  | _, _ => standardType c

def generic : Dialect where
  product := .generic
  typeName := standardType

def h2 : Dialect where
  product := .h2
  memoryTables := true
  hashIndexes := .all
  mergeForm := .keyed
  identityClause := some "AUTO_INCREMENT"
  typeName := h2Type

/-- The limit that limits nothing is the greatest row count. -/
def mySql : Dialect where
  product := .mySql
  identifierMark := Char.ofNat 96
  paging := .limitFirst "18446744073709551615"
  hashIndexes := .all
  indexForm := .trailing
  mergeForm := .onDuplicateKey
  identityClause := some "AUTO_INCREMENT"
  typeName := mySqlType

def postgreSql : Dialect where
  product := .postgreSql
  hashIndexes := .oneColumn
  indexForm := .method
  mergeForm := .onConflict
  identityClause := none
  typeName := postgreSqlType

def sqlite : Dialect where
  product := .sqlite
  paging := .limitFirst "-1"
  mergeForm := .orReplace
  identityClause := none
  inlineKey := true
  typeName := sqliteType

/-- Pages of rows can be asked for since version 10.5. -/
def derby (version : ProductVersion) : Dialect where
  product := .derby
  ifNotExists := false
  paging :=
    if version.atLeast 10 5 then .offsetFetch
    else .unsupported ("derby " ++ version.text) .offsetFetch
  mergeForm := .deleteInsert
  typeName := derbyType

def ofProduct (p : Product) (version : ProductVersion) : Dialect :=
  match p with
  | .generic => generic
  | .h2 => h2
  | .mySql => mySql
  | .postgreSql => postgreSql
  | .sqlite => sqlite
  | .derby => derby version

/-- A version that cannot be read counts as 0.0. -/
def versionOf (reported : String) : ProductVersion := (ProductVersion.ofText? reported).getD .zero

def detect (product version : String) : Dialect := ofProduct (.detect product) (versionOf version)

/-- A dialect like the one of unknown products, but for these four decisions. -/
def custom (ifNotExists memoryTables paging : Bool) (identityClause : Option String) : Dialect :=
  { generic with
    ifNotExists
    memoryTables
    paging := if paging then .limitOffset else .unsupported Product.generic.name .limitOffset
    identityClause }

@[simp] theorem product_ofProduct (p : Product) (version : ProductVersion) :
    (ofProduct p version).product = p := by
  cases p <;> rfl

end RecordMapper.Dialect
