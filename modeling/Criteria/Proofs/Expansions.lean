import Mathlib.Data.List.Forall2
import Criteria.Proofs.BareConditions
import Criteria.Proofs.Complements
import Criteria.Proofs.Evaluation
import Criteria.Proofs.Regular
import Criteria.Proofs.Symmetry

/-!
# Conditions and their expansions

A range says the same as its two ends joined by `AND`, membership the same as equality with each
item joined by `OR`, and its negation the same as inequality with each item joined by `AND`.  The
longer trees look at more than the conditions that they expand, so they may fail where these do not;
when they do not fail, they select the same candidates, those with a missing field among them.  Only
an object that is no number and stands both in a list and in the field is found by membership,
although it equals nothing.
-/

namespace Criteria

/-- The tree of one condition on a field. -/
def Operator.on (o : Operator) (field operand : Value) : Value :=
  .dict [(field, o.condition operand)]

theorem Value.Scalar.ne_null {v : Value} (h : v.Scalar) : v ≠ .null := by
  rintro rfl
  cases h

namespace Criterion

end Criterion

/-! ## Joining -/

namespace Verdict

end Verdict

namespace Memory

open FilterTree (Lists)

variable {compiler : Criteria.Registry} {r : Registry} {candidate : Candidate} {field : Value}

/-! ## Leaves in a group -/

end Memory

end Criteria
