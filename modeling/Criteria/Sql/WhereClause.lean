import Criteria.Clause.Sink
import Criteria.Sql.Test

/-!
# The where clause as an expression

A where clause collects texts with bound parameters.  Unlike a builder it does not look at the names
of the parameters of other clauses.  A clause whose parameters do not fit its text is refused.
-/

namespace Criteria.Sql

open Clause (Item Path)

/-- A where clause under construction. -/
structure WhereClause where
  items : List (Item BoundText)

namespace WhereClause

def empty : WhereClause := ⟨[]⟩

/-- The where clause with a text at the end of the group at a path. -/
def addClause (path : Path) (j : Join) (query : String) (parameters : Parameters)
    (w : WhereClause) : Except Fault WhereClause :=
  match BoundText.ofFragment query parameters with
  | .error fault => .error fault
  | .ok t => .ok ⟨Item.appendAt path (.clause j t) w.items⟩

/-- The path of a group opened at the end of the group at a path, and the where clause with it. -/
def openGroup (path : Path) (j : Join) (w : WhereClause) : Path × WhereClause :=
  match Item.openAt path j w.items with
  | (inner, items) => (inner, ⟨items⟩)

/-- A clause whose join is still to be read.  The join is read first. -/
def addClauseBy (path : Path) (j : Value) (query : String) (parameters : Parameters) :
    EStateM Fault WhereClause Unit := fun w ↦
  match Clause.joinOf j with
  | .error fault => .error fault w
  | .ok j =>
    match w.addClause path j query parameters with
    | .error fault => .error fault w
    | .ok w => .ok () w

/-- The expression of the group at a path, unless there is nothing in it. -/
def build? (path : Path) (w : WhereClause) : Option (Expression BoundText) :=
  Expression.ofItems? (Item.itemsAt path w.items)

/-- The statement of the group at a path, unless there is nothing in it. -/
def statement? (path : Path) (w : WhereClause) : Except Fault (Option Statement) :=
  match w.build? path with
  | none => .ok none
  | some e => (Statement.ofPieces (e.pieces BoundText.pieces)).map some

end WhereClause

instance : Clause.Sink WhereClause := ⟨WhereClause.addClause, WhereClause.openGroup⟩

end Criteria.Sql
