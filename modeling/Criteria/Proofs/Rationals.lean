import Criteria.Proofs.Rounding

/-!
# Numbers as rationals

Two finite numbers are compared by the place of their leading digits, and then by their coefficients
at a common exponent.  They come out equal exactly when they are the same rational.  Two infinities
are equal when they have the same sign, and what is not a number equals nothing.
-/

namespace Criteria

namespace Number.Exact

variable {x y : Exact}

/-- The rational that a quantity is. -/
def value (x : Exact) : ℚ := if x.negative then -x.magnitude else x.magnitude

theorem magnitude_eq_zero_iff : x.magnitude = 0 ↔ x.coefficient = 0 := by
  have hpower : (10 : ℚ) ^ x.exponent ≠ 0 := by positivity
  rw [magnitude, mul_eq_zero, or_iff_left hpower, Nat.cast_eq_zero]

theorem magnitude_nonneg (x : Exact) : 0 ≤ x.magnitude := by
  rw [magnitude]
  positivity

theorem value_eq_zero_iff : x.value = 0 ↔ x.coefficient = 0 := by
  rw [value, ← magnitude_eq_zero_iff]
  split
  · exact neg_eq_zero
  · rfl

/-- The coefficient at a smaller exponent stands for the same magnitude. -/
theorem magnitude_eq_scaledTo {low : ℤ} (h : low ≤ x.exponent) :
    x.magnitude = x.scaledTo low * 10 ^ low := by
  have hpower : (10 : ℚ) ^ x.exponent = 10 ^ (x.exponent - low).toNat * 10 ^ low := by
    rw [← zpow_natCast, Int.toNat_of_nonneg (by omega), ← zpow_add₀ (by norm_num), sub_add_cancel]
  rw [magnitude, scaledTo, hpower, ← mul_assoc]
  push_cast [Nat.pow_eq]
  rfl

theorem scaledTo_eq_iff {low : ℤ} (hx : low ≤ x.exponent) (hy : low ≤ y.exponent) :
    x.scaledTo low = y.scaledTo low ↔ x.magnitude = y.magnitude := by
  have hpower : (10 : ℚ) ^ low ≠ 0 := by positivity
  rw [magnitude_eq_scaledTo hx, magnitude_eq_scaledTo hy, mul_left_inj' hpower, Nat.cast_inj]

/-- The leading digit of the smaller magnitude does not stand at a higher place. -/
theorem place_le (hx : x.coefficient ≠ 0) (hy : y.coefficient ≠ 0)
    (h : x.magnitude ≤ y.magnitude) : x.place ≤ y.place := by
  have hlt : (10 : ℚ) ^ (x.place - 1) < 10 ^ y.place :=
    (Double.place_bounds hx).1.trans_lt (h.trans_lt (Double.place_bounds hy).2)
  have hplaces := (zpow_lt_zpow_iff_right₀ (by norm_num : (1 : ℚ) < 10)).mp hlt
  omega

theorem compareMagnitude_eq_iff : x.compareMagnitude y = .eq ↔ x.magnitude = y.magnitude := by
  rw [compareMagnitude]
  by_cases hx : x.coefficient = 0
  · rw [if_pos hx, magnitude_eq_zero_iff.mpr hx, eq_comm (a := (0 : ℚ)), magnitude_eq_zero_iff]
    split <;> simp_all
  · by_cases hy : y.coefficient = 0
    · rw [if_neg hx, if_pos hy, magnitude_eq_zero_iff.mpr hy, magnitude_eq_zero_iff]
      exact iff_of_false (by decide) hx
    · have hlow := scaledTo_eq_iff (min_le_left x.exponent y.exponent)
        (min_le_right x.exponent y.exponent)
      rw [if_neg hx, if_neg hy, Ordering.then_eq_eq, Std.compare_eq_iff_eq, Std.compare_eq_iff_eq,
        hlow, and_iff_right_iff_imp]
      intro heq
      exact le_antisymm (place_le hx hy heq.le) (place_le hy hx heq.ge)

/-- Quantities are compared as equal when they are the same rational. -/
theorem compare_eq_iff : x.compare y = .eq ↔ x.value = y.value := by
  rw [compare]
  by_cases hzero : x.coefficient = 0 ∧ y.coefficient = 0
  · rw [if_pos hzero, value_eq_zero_iff.mpr hzero.1, value_eq_zero_iff.mpr hzero.2]
    exact iff_of_true rfl rfl
  · rw [if_neg hzero, value, value]
    have hx := x.magnitude_nonneg
    have hy := y.magnitude_nonneg
    -- Only zeros of different signs are equal.
    have hmagnitudes : ¬(x.magnitude = 0 ∧ y.magnitude = 0) := by
      rwa [magnitude_eq_zero_iff, magnitude_eq_zero_iff]
    cases x.negative <;> cases y.negative
    · exact compareMagnitude_eq_iff
    · refine iff_of_false (by decide : Ordering.gt ≠ .eq) fun h ↦ hmagnitudes ?_
      simp only [Bool.false_eq_true, if_false, if_true] at h
      constructor <;> linarith
    · refine iff_of_false (by decide : Ordering.lt ≠ .eq) fun h ↦ hmagnitudes ?_
      simp only [Bool.false_eq_true, if_false, if_true] at h
      constructor <;> linarith
    · simp only [if_true, neg_inj, compareMagnitude_eq_iff]
      exact eq_comm

theorem value_ofInt (n : ℤ) : (ofInt n).value = n := by
  have hmagnitude : (ofInt n).magnitude = |(n : ℚ)| := by
    rw [magnitude, ofInt, zpow_zero, mul_one, ← Int.cast_natCast, Int.natCast_natAbs, Int.cast_abs]
  rw [value, hmagnitude, ofInt]
  by_cases h : n < 0
  · have hcast : (n : ℚ) < 0 := by exact_mod_cast h
    simp [h, abs_of_neg hcast]
  · have hcast : (0 : ℚ) ≤ n := by exact_mod_cast not_lt.mp h
    simp [h, abs_of_nonneg hcast]

end Number.Exact

namespace Number.Double

/-- The rational that a finite number is. -/
def finiteValue (negative : Bool) (mantissa : ℕ) (exponent : ℤ) : ℚ :=
  if negative then -(mantissa * 2 ^ exponent) else mantissa * 2 ^ exponent

theorem value_toExact (negative : Bool) (mantissa : ℕ) (exponent : ℤ) :
    (toExact negative mantissa exponent).value = finiteValue negative mantissa exponent := by
  have hmagnitude : (toExact negative mantissa exponent).magnitude = mantissa * 2 ^ exponent := by
    rw [toExact, zpow_eq_div 2]
    by_cases h : 0 ≤ exponent
    · have hneg : (-exponent).toNat = 0 := by omega
      rw [if_pos h, Exact.magnitude, hneg]
      push_cast [Nat.pow_eq]
      ring
    · have hpos : exponent.toNat = 0 := by omega
      rw [if_neg h, Exact.magnitude, zpow_eq_div 10, hpos]
      push_cast [Nat.pow_eq]
      rw [show (10 : ℚ) = 2 * 5 by norm_num]
      field_simp
      rw [mul_pow]
      ring
  have hnegative : (toExact negative mantissa exponent).negative = negative := by
    rw [toExact]
    split <;> rfl
  rw [Exact.value, hnegative, hmagnitude, finiteValue]

end Number.Double

namespace Number

/-- What a number amounts to. -/
inductive Amount where
  | infinite (negative : Bool)
  | rational (q : ℚ)

/-- The amount of a number, if it is one. -/
def Quantity.amount? : Quantity → Option Amount
  | nan => none
  | infinite negative => some (.infinite negative)
  | finite x => some (.rational x.value)

theorem Quantity.equal_iff_amount? {x y : Quantity} {a : Amount} (h : x.amount? = some a) :
    x.equal y = true ↔ y.amount? = some a := by
  rw [equal, beq_iff_eq]
  cases x with
  | nan => cases h
  | infinite s =>
      obtain rfl := Option.some.inj h
      cases y with
      | nan => simp [compare?, amount?]
      | infinite t => cases s <;> cases t <;> simp [compare?, amount?]
      | finite y => cases s <;> simp [compare?, amount?]
  | finite x =>
      obtain rfl := Option.some.inj h
      cases y with
      | nan => simp [compare?, amount?]
      | infinite t => cases t <;> simp [compare?, amount?]
      | finite y => simpa [compare?, amount?, Exact.compare_eq_iff] using eq_comm

end Number

end Criteria
