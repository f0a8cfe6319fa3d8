import Criteria.Proofs.Acceptance

/-!
# Identifiers that are used up

A compiler goes through requests one after the other, whether they succeed or not.  Each request
that is accepted takes the next number of its sequence, except for a null check, and a request that
is rejected takes none.
-/

namespace Criteria

namespace Compiled

def parameters : Compiled → Parameters
  | fragment f => f.parameters
  | find (.raw _ _ parameters _) => parameters
  | find _ => []

end Compiled

/-- A request to a compiler. -/
structure CompileRequest where
  target : Value
  fieldAlias : Value
  condition : Value

namespace CompileRequest

def run (registry : Registry) (r : CompileRequest) : Compiling Compiled :=
  compile registry r.target r.fieldAlias r.condition

variable {registry : Registry} {r : CompileRequest} {t : Target}

end CompileRequest

/-! ## Requests one after the other -/

/-- A request with its answer. -/
abbrev Answer := CompileRequest × Except Fault Compiled

/-- The answers to requests, whether they succeed or not, and the identifiers that are left. -/
def answers (registry : Registry) : List CompileRequest → IdSource → List Answer × IdSource
  | [], ids => ([], ids)
  | r :: rest, ids =>
    match r.run registry ids with
    | .ok out ids => ((r, .ok out) :: (answers registry rest ids).1, (answers registry rest ids).2)
    | .error fault ids =>
      ((r, .error fault) :: (answers registry rest ids).1, (answers registry rest ids).2)

section Accounts

variable {registry : Registry} {lead : String} {start : Int} {log : List Answer} {ids : IdSource}

end Accounts

end Criteria
