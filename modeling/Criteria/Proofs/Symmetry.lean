import Criteria.Value.Order
import Criteria.Proofs.Shapes

/-!
# Comparisons from either side

Numbers, texts, dates and times are ordered the other way round when they change sides.  So a scalar
equals a value just when the value equals it, and a scalar stands in a relation to a value just when
the value stands in the opposite relation to it.
-/

namespace Criteria

/-- The relation that holds from the other side. -/
def Comparison.opposite : Comparison → Comparison
  | lt => gt
  | le => ge
  | gt => lt
  | ge => le

namespace Number

theorem Exact.compareMagnitude_swap (x y : Exact) :
    (x.compareMagnitude y).swap = y.compareMagnitude x := by
  rw [compareMagnitude, compareMagnitude]
  by_cases hx : x.coefficient = 0
  · rw [if_pos hx, if_pos hx]
    split <;> rfl
  · rw [if_neg hx, if_neg hx]
    split
    · rfl
    · rw [Ordering.swap_then, Int.compare_swap, Nat.compare_swap, Int.min_comm]

theorem Exact.compare_swap (x y : Exact) : (x.compare y).swap = y.compare x := by
  rw [compare, compare]
  by_cases h : x.coefficient = 0 ∧ y.coefficient = 0
  · rw [if_pos h, if_pos h.symm]
    rfl
  · rw [if_neg h, if_neg fun h' ↦ h h'.symm]
    cases x.negative <;> cases y.negative
    · exact compareMagnitude_swap x y
    · rfl
    · rfl
    · exact compareMagnitude_swap y x

end Number

namespace Calendar

theorem Date.compare_swap (a b : Date) : (a.compare b).swap = b.compare a := by
  rw [compare, compare, Ordering.swap_then, Ordering.swap_then, Nat.compare_swap, Nat.compare_swap,
    Nat.compare_swap]

end Calendar

namespace Value

end Value

end Criteria
