import RecordMapper.Text.Ascii
import RecordMapper.Text.Blank

/-!
# Kinds of statements

A statement is classified by its first word; an `INSERT` that may replace a row is a merge.
-/

set_option autoImplicit false

namespace RecordMapper

inductive StatementKind
  | create
  | insert
  | update
  | merge
  | delete
  | select
  | other
deriving DecidableEq, Repr

namespace StatementKind

def all : List StatementKind := [create, insert, update, merge, delete, select, other]

theorem mem_all (kind : StatementKind) : kind ∈ all := by cases kind <;> decide

def name : StatementKind → String
  | create => "CREATE"
  | insert => "INSERT"
  | update => "UPDATE"
  | merge => "MERGE"
  | delete => "DELETE"
  | select => "SELECT"
  | other => "OTHER"

def replaces (capitals : List Char) : Bool :=
  "INSERT OR REPLACE".toList.isPrefixOf capitals
    || Text.occursIn "ON DUPLICATE KEY UPDATE".toList capitals
    || (Text.occursIn "ON CONFLICT".toList capitals && Text.occursIn "DO UPDATE".toList capitals)

/-- The kind of a statement; blanks and brackets in front of it are skipped. -/
def classify (sql : String) : StatementKind :=
  let body := sql.toList.dropWhile fun c => Text.isBlank c || c = '('
  let keyword := (body.takeWhile Char.isAlpha).map Char.toUpper
  match String.ofList keyword with
  | "CREATE" | "DROP" | "ALTER" => create
  | "INSERT" => if replaces (body.map Char.toUpper) then merge else insert
  | "REPLACE" | "MERGE" => merge
  | "UPDATE" => update
  | "DELETE" => delete
  | "SELECT" | "WITH" | "VALUES" => select
  | _ => other

end StatementKind

end RecordMapper
