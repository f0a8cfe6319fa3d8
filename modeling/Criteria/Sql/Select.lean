import Criteria.FilterTree
import Criteria.Sort
import Criteria.Sql.WhereClause

/-!
# Select statements

A select statement is restricted by a filter tree and sorted by a sort directive.  A tree without
any condition leaves the statement as it is.
-/

namespace Criteria.Sql

/-- A select statement on one table. -/
structure Select where
  table : Table
  columns : List Column
  restriction : Option (Expression BoundText)
  order : List (String × SortDirection)

namespace Select

/-- The select statement for some columns, neither restricted nor sorted. -/
def ofColumns (table : Table) (names : List String) : Select :=
  ⟨table, names.map fun name ↦ ⟨table.name, name⟩, none, []⟩

/-- The statement with a restriction more. -/
def restrict (e : Expression BoundText) (s : Select) : Select :=
  match s.restriction with
  | none => { s with restriction := some e }
  | some old => { s with restriction := some (.conjunction [old, e]) }

/-- The statement restricted by a filter tree on an alias. -/
def restrictByTree (registry : Registry) (tree base : Value) (s : Select) : Compiling Select :=
  fun ids ↦
  let join := Value.text Join.and.keyword
  match FilterTree.apply registry base [] join tree ⟨WhereClause.empty, ids⟩ with
  | .error fault c => .error fault c.ids
  | .ok () c =>
    match c.sink.build? [] with
    | none => .ok s c.ids
    | some e => .ok (s.restrict e) c.ids

def isUnrestricted (s : Select) : Bool := s.restriction.isNone

/-- The statement sorted by a sort directive on an alias, after what it is sorted by already. -/
def sortBy (directive base : Value) (s : Select) : Except Fault Select :=
  match sortOrder base directive with
  | .error fault => .error fault
  | .ok order => .ok { s with order := s.order ++ order }

/-- The pieces of what a statement is restricted by.  A restriction that writes nothing is left
out. -/
def restrictionPieces (s : Select) : List Piece :=
  let pieces := (s.restriction.map (·.pieces BoundText.pieces)).getD []
  if pieces.any Piece.isWritten then .text " \nWHERE " :: pieces else []

def pieces (s : Select) : List Piece :=
  [.text ("SELECT " ++ String.intercalate ", " (s.columns.map Column.text) ++ " \nFROM "
    ++ identifier s.table.name)]
  ++ s.restrictionPieces
  ++ (if s.order.isEmpty then []
    else [.text (" ORDER BY " ++ String.intercalate ", "
      (s.order.map fun o ↦ o.1 ++ " " ++ o.2.keyword))])

def statement (s : Select) : Except Fault Statement := Statement.ofPieces s.pieces

end Select

end Criteria.Sql
