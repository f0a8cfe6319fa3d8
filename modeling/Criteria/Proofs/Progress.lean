import Criteria.Proofs.Consumption
import Criteria.Proofs.Jobs

/-!
# How far a tree gets

A tree makes the requests of its leaves in depth-first order, up to its first entry that fails, and
uses up the identifiers that these requests take.
-/

namespace Criteria

open Clause (Builder Path Sink joinOf parametersOf)

namespace FilterTree

/-- The visits to a tree, of which there are none to a value that is no tree. -/
def treeVisits : Value → List Visit
  | .dict entries => entryVisits entries
  | _ => []

/-- The request that a visit makes if it comes to a condition whose field has an alias. -/
def Visit.request? (base : Value) (v : Visit) : Option CompileRequest :=
  match v.finding with
  | .condition field condition =>
    match resolveAlias field base with
    | .ok fieldAlias => some ⟨.text "qb", .text fieldAlias, condition⟩
    | .error _ => none
  | .misshapen _ _ => none

/-- How far a tree gets with a source of identifiers: the visits that are done make the requests of
their leaves one after the other, and all of them succeed.  The next visit fails with the
identifiers that are left. -/
structure Progress (registry : Registry) (base tree : Value) (ids : IdSource) where
  done : List Visit
  rest : List Visit
  requests : List CompileRequest
  fragments : List Fragment
  last : IdSource
  visits_eq : treeVisits tree = done ++ rest
  requests_eq : done.map (Visit.request? base) = requests.map some
  answers_eq : answers registry requests ids =
    (requests.zip (fragments.map fun f ↦ .ok (.fragment f)), last)
  fails : ∀ v ∈ rest.head?, ∃ fault, v.finding.fragment registry base last = .error fault last

/-- The conditions that a tree has come to, with their fields. -/
def Progress.leaves {registry : Registry} {base tree : Value} {ids : IdSource}
    (p : Progress registry base tree ids) : List (Value × Value) :=
  p.done.filterMap Visit.leaf?

variable {registry : Registry} {base : Value}

end FilterTree

open FilterTree (Progress Visit applyTree entryLeaves)

end Criteria
