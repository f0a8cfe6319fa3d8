import Criteria.Fault

/-!
# Registries of operators

A registry is the list of operators that a compiler knows.  A token that is no text, names no
operator, or names one that the registry does not hold is unknown.
-/

namespace Criteria

/-- The operators that a compiler knows. -/
abbrev Registry := List Operator

namespace Registry

def full : Registry := Operator.all

/-- The registry with an operator added. -/
def register (o : Operator) (r : Registry) : Registry := if r.contains o then r else r ++ [o]

/-- The registry without an operator. -/
def unregister (o : Operator) (r : Registry) : Registry := r.filter (· != o)

/-- The tokens of the registry in alphabetical order. -/
def tokens (r : Registry) : List String :=
  (r.map Operator.token).mergeSort (decide <| · ≤ ·)

/-- The operator that is asked for, when the registry holds it. -/
def find? (r : Registry) (request : OperatorRequest) : Option Operator :=
  (request.tokenText?.bind Operator.ofToken?).filter r.contains

/-- The operator that is asked for. -/
def resolve (r : Registry) (request : OperatorRequest) : Except ConditionFault Operator :=
  match r.find? request with
  | some o => .ok o
  | none => .error (.unknownOperator request (r.map Operator.token))

end Registry

end Criteria
