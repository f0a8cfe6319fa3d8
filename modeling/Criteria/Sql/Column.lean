import Criteria.Fault
import Criteria.Value.Key

/-!
# Tables and columns

A column is written as `table.column`.  Its name is put in quotes when it is a reserved word or not
made of lower-case letters, digits, `_` and `$`, or begins with a digit or `$`.
-/

namespace Criteria.Sql

structure Column where
  table : String
  name : String
  deriving DecidableEq

/-- A table with the names of its columns. -/
structure Table where
  name : String
  columns : List String

/-- The words that cannot be the name of a column as they are. -/
def reservedWords : List String :=
  ["all", "analyse", "analyze", "and", "any", "array", "as", "asc", "asymmetric", "authorization",
   "between", "binary", "both", "case", "cast", "check", "collate", "column", "constraint",
   "create", "cross", "current_date", "current_role", "current_time", "current_timestamp",
   "current_user", "default", "deferrable", "desc", "distinct", "do", "else", "end", "except",
   "false", "for", "foreign", "freeze", "from", "full", "grant", "group", "having", "ilike", "in",
   "initially", "inner", "intersect", "into", "is", "isnull", "join", "leading", "left", "like",
   "limit", "localtime", "localtimestamp", "natural", "new", "not", "notnull", "null", "off",
   "offset", "old", "on", "only", "or", "order", "outer", "overlaps", "placing", "primary",
   "references", "right", "select", "session_user", "set", "similar", "some", "symmetric", "table",
   "then", "to", "trailing", "true", "union", "unique", "user", "using", "verbose", "when",
   "where"]

/-- Whether a character may stand in a name without quotes. -/
def isPlain (c : Char) : Bool := ('a' ≤ c && c ≤ 'z') || c.isDigit || c == '_' || c == '$'

/-- Whether a name can only be written in quotes. -/
def needsQuotes (name : String) : Bool :=
  reservedWords.contains name || !name.toList.all isPlain ||
    (match name.toList with
      | c :: _ => c.isDigit || c == '$'
      | [] => true)

/-- A name as it is written, with quotes when it needs them.  A quote inside is written twice. -/
def identifier (name : String) : String :=
  if needsQuotes name then
    "\"" ++ String.ofList (name.toList.flatMap fun c ↦ if c = '"' then ['"', '"'] else [c]) ++ "\""
  else name

/-- The characters of a name that cannot stand in the name of a parameter. -/
def isSeparator (c : Char) : Bool := ['%', '(', ')', ' ', '$'].contains c

/-- Characters with every run of separators replaced by one `_`. -/
def joinedBySeparators : List Char → List Char
  | [] => []
  | [c] => [if isSeparator c then '_' else c]
  | c :: d :: rest =>
    if isSeparator c then
      if isSeparator d then joinedBySeparators (d :: rest)
      else '_' :: joinedBySeparators (d :: rest)
    else c :: joinedBySeparators (d :: rest)

/-- Characters without those `_` at both ends. -/
def withoutOuterUnderscores (cs : List Char) : List Char :=
  ((cs.dropWhile (· = '_')).reverse.dropWhile (· = '_')).reverse

namespace Column

/-- A column as it is written in a statement. -/
def text (c : Column) : String := identifier c.table ++ "." ++ identifier c.name

/-- A column as raw templates name it, without quotes. -/
def plainText (c : Column) : String := c.table ++ "." ++ c.name

/-- What the names of parameters for a column begin with. -/
def parameterBase (c : Column) : String :=
  String.ofList (withoutOuterUnderscores (joinedBySeparators c.name.toList))

end Column

namespace Table

/-- The column at a place, counted from zero. -/
def columnAt? (t : Table) (place : Value) : Option Column :=
  (t.columns.zipIdx.find? fun c ↦ place.equal (.int c.2)).map fun c ↦ ⟨t.name, c.1⟩

/-- The column of a field, which is a name or a place. -/
def column (t : Table) (field : Value) : Except Fault Column :=
  match field with
  | .text name => if t.columns.contains name then .ok ⟨t.name, name⟩ else .error (.unknownKey field)
  | .int _ | .bool _ =>
    match t.columnAt? field with
    | some c => .ok c
    | none => .error (.noPlace field)
  | _ =>
    match field.keyFault?, t.columnAt? field with
    | some fault, _ => .error fault
    | none, some c => .ok c
    | none, none => .error (.unknownKey field)

/-- The columns of several fields. -/
def columnsOf (t : Table) : List Value → Except Fault (List Column)
  | [] => .ok []
  | field :: rest =>
    match t.column field with
    | .error fault => .error fault
    | .ok c => (columnsOf t rest).map (c :: ·)

end Table

end Criteria.Sql
