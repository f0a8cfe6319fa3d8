import Criteria.Sql.Test

/-!
# Several columns at once

A field that is a tuple stands for several columns.  They are compared with a value item by item,
and no item of a value is a column, so they equal a value only if there is nothing on either side.
A raw operator lists them, and no other test applies to them.
-/

namespace Criteria.Sql

/-- What a field stands for. -/
inductive Selection where
  | one (column : Column)
  | several (columns : List Column)

namespace Table

/-- What a field stands for in a table. -/
def select (t : Table) : Value → Except Fault Selection
  | .tuple fields => (t.columnsOf fields).map .several
  | field => (t.column field).map .one

end Table

namespace Selection

/-- What raw templates call several columns. -/
def listing (columns : List Column) : String :=
  "ReadOnlyColumnCollection(" ++ String.intercalate ", " (columns.map Column.plainText) ++ ")"

/-- The constant that a truth value is. -/
def constant (b : Bool) : Expression Atom := if b then .always else .never

/-- Whether several columns equal a value, which must have items. -/
def equality (columns : List Column) (value : Value) : Except Fault Bool :=
  match FindOperator.memberOf value with
  | .ok op => .ok (columns.isEmpty && op.operand.equal (.list []))
  | .error fault => .error fault

/-- The truth value that an operator on several columns comes to, if it wraps no other and is not
raw. -/
def outcome (kinds : List FindKind) (columns : List Column) (op : FindOperator) :
    Except Fault Bool :=
  if kinds.contains op.kind then
    match op with
    | .equal v => equality columns v
    | .moreThan v => .error (.columnsNotOrdered .gt v)
    | .moreThanOrEqual v => .error (.columnsNotOrdered .ge v)
    | .lessThan v => .error (.columnsNotOrdered .lt v)
    | .lessThanOrEqual v => .error (.columnsNotOrdered .le v)
    | op => .error (.noTest op.kind)
  else .error (.unsupportedKind .sql op.kind)

/-- The part of a filter that an operator on several columns makes.  A truth value is a constant,
and the negation of one is an atom. -/
def ofSeveral (kinds : List FindKind) (columns : List Column) :
    FindOperator → Except Fault (Expression Atom)
  | .not (.not op) => ofSeveral kinds columns op
  | .not (.raw value template parameters origin) =>
    (Atom.ofRaw (listing columns) true (.raw value template parameters origin) parameters).map
      .atom
  | .not op => (outcome kinds columns op).map fun b ↦ .atom (.negation b)
  | .raw value template parameters origin =>
    (Atom.ofRaw (listing columns) false (.raw value template parameters origin) parameters).map
      .atom
  | op => (outcome kinds columns op).map constant

/-- The part of a filter that an operator on a selection makes. -/
def part (kinds : List FindKind) (op : FindOperator) : Selection → Except Fault (Expression Atom)
  | one column => (Atom.ofOperator kinds column none op).map .atom
  | several columns => ofSeveral kinds columns op

end Selection

end Criteria.Sql
