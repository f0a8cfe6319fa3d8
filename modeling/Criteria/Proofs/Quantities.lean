import Criteria.Proofs.Comparisons

/-!
# Counting

A number counts as the rational that it is, and a truth value as zero or one.  What counts as one
rational is equal.
-/

namespace Criteria

namespace Value

/-- The rational that a number is. -/
def number? : Value → Option ℚ
  | .int n => some n
  | .float (.finite negative mantissa exponent) =>
    some (Number.Double.finiteValue negative mantissa exponent)
  | _ => none

/-- The rational that a number or a truth value counts as. -/
def count? : Value → Option ℚ
  | .bool b => some (b.toNat : ℚ)
  | v => v.number?

/-- What can be written amounts to the rational that it counts as. -/
theorem IsWritable.amount?_eq {v : Value} (h : v.IsWritable) :
    v.amount? = v.count?.map .rational := by
  cases h with
  | bool b => exact congrArg (some ∘ Number.Amount.rational) (Number.Exact.value_ofInt b.toNat)
  | int n => exact congrArg (some ∘ Number.Amount.rational) (Number.Exact.value_ofInt n)
  | float _ negative =>
      exact congrArg (some ∘ Number.Amount.rational) (Number.Double.value_toExact negative _ _)
  | _ => rfl

/-- A number or a truth value equals what counts as the same rational. -/
theorem IsWritable.equality_eq_yes_iff_count? {v w : Value} (hv : v.IsWritable)
    (hw : w.IsWritable) {q : ℚ} (hcount : v.count? = some q) :
    v.equality w = .yes ↔ w.count? = some q := by
  have hidentity : ∀ u : Value, u.IsWritable →
      (u.plainIdentity? = some (.number (.rational q)) ↔ u.count? = some q) := by
    intro u hu
    rw [plainIdentity?_eq_number_iff, hu.amount?_eq]
    simp
  rw [equality_eq_yes_iff_plainIdentity? ((hidentity v hv).mpr hcount), hidentity w hw]

end Value

end Criteria
