import Criteria.Proofs.Drafts
import Criteria.Proofs.Sequences

/-!
# Trees with different seeds

A seed is a numbered sequence whose identifiers are without braces.  Whatever the seed, a condition
is admitted or refused for the same reason, no names clash, and the clause is one draft filled in
with the identifiers of the seed.  So a tree fails in the same way with all seeds, or becomes one
draft with all of them.
-/

namespace Criteria

structure Seed where
  lead : String
  start : Int
  isPlain : IsPlain lead.toList

namespace Seed

/-- The identifier that is drawn after as many others as the number says. -/
def id (seed : Seed) (number : Nat) : String := seed.lead ++ toString (seed.start + number)

def source (seed : Seed) (number : Nat) : IdSource := .sequence seed.lead (seed.start + number)

variable (seed : Seed) (number : Nat)

end Seed

/-! ## Conditions -/

/-- The draft of an alias, a sign and one parameter. -/
def Draft.binary (fieldAlias sign : String) (number : Nat) (rest : String) (value : Value) :
    Draft where
  query := [.text (fieldAlias ++ " " ++ sign ++ " :"), .name number rest]
  parameters := [((number, rest), value)]
  named := rfl

namespace FilterTree

open Clause (Builder Item parametersOf)

variable {registry : Registry} {base : Value}

end FilterTree

end Criteria
