import Criteria.Operator

/-!
# Clauses and groups

A where clause is a sequence of items.  An item is a single clause or a bracketed group of items,
and says how it is joined to the items before it.  A group inside a sequence is addressed by the
places to go down at, from the outermost sequence on.
-/

namespace Criteria.Clause

/-- A clause with some content, or a group of items. -/
inductive Item (α : Type) where
  | clause (join : Join) (content : α)
  | group (join : Join) (items : List (Item α))

/-- Where a group is: the place of the outermost group that holds it, and so on inwards. -/
abbrev Path := List Nat

namespace Item

variable {α : Type}

/-- How an item is joined to the items before it. -/
def join : Item α → Join
  | clause j _ => j
  | group j _ => j

/-- The items with one more at the end of the group at a path. -/
def appendAt : Path → Item α → List (Item α) → List (Item α)
  | [], new, items => items ++ [new]
  | i :: path, new, items => items.modify i fun
    | group j inner => group j (appendAt path new inner)
    | clause j content => clause j content

/-- The items of the group at a path. -/
def itemsAt : Path → List (Item α) → List (Item α)
  | [], items => items
  | i :: path, items =>
    match items[i]? with
    | some (group _ inner) => itemsAt path inner
    | _ => []

/-- The items with an empty group opened at the end of the group at a path, and the path of the new
group. -/
def openAt (path : Path) (j : Join) (items : List (Item α)) : Path × List (Item α) :=
  (path ++ [(itemsAt path items).length], appendAt path (group j []) items)

end Item

end Criteria.Clause
