import Criteria.FilterTree

/-!
# Sort directives

A sort directive maps field names to directions.  The words `asc`, `ascend` and `ascending` and the
number one sort upwards, and everything else downwards; a truth value is no number here.
-/

namespace Criteria

/-- The direction in which a field is sorted. -/
inductive SortDirection where
  | ascending | descending
  deriving DecidableEq

namespace SortDirection

/-- Both directions. -/
def all : List SortDirection := [ascending, descending]

def keyword : SortDirection → String
  | ascending => "ASC"
  | descending => "DESC"

/-- The words that sort upwards. -/
def ascendingWords : List String := ["ascend", "asc", "ascending"]

def ofValue (v : Value) : Except Fault SortDirection :=
  match v with
  | .bool _ => .ok descending
  | .text s => .ok (if ascendingWords.contains s then ascending else descending)
  | v =>
    match Fault.ofVerdict (v.equality (.int 1)) with
    | .ok isOne => .ok (if isOne then ascending else descending)
    | .error fault => .error fault

end SortDirection

/-- The aliases and directions of the entries of a sort directive, in order. -/
def sortEntries (base : Value) :
    List (Value × Value) → Except Fault (List (String × SortDirection))
  | [] => .ok []
  | (field, direction) :: rest =>
    match resolveAlias field base with
    | .error fault => .error fault
    | .ok fieldAlias =>
      match SortDirection.ofValue direction with
      | .error fault => .error fault
      | .ok direction => (sortEntries base rest).map ((fieldAlias, direction) :: ·)

/-- The aliases and directions of a sort directive, in order. -/
def sortOrder (base : Value) : (directive : Value) → Except Fault (List (String × SortDirection))
  | .dict entries => sortEntries base entries
  | directive => .error (.noEntries directive)

end Criteria
