import Mathlib.Algebra.Order.Field.Power
import Mathlib.Data.Rat.Cast.Order
import Mathlib.Tactic.FieldSimp
import Mathlib.Tactic.GCongr
import Mathlib.Tactic.Linarith
import Mathlib.Tactic.Positivity
import Mathlib.Tactic.Ring
import Criteria.Number.Double

/-!
# Rounding to binary numbers

The rationals that round to a number lie around it, half a unit of its last place to each side and
a quarter below a power of two, where the numbers become twice as dense.  The ends belong to the
number when its mantissa is even.  Every rational of this interval is rounded to the number.
-/

namespace Criteria.Number

/-- A power with an integer exponent, by powers with natural ones. -/
theorem zpow_eq_div (b : ℚ) (e : ℤ) : b ^ e = b ^ e.toNat / b ^ (-e).toNat := by
  rcases le_total 0 e with h | h
  · have hneg : (-e).toNat = 0 := by omega
    rw [hneg, pow_zero, div_one, ← zpow_natCast, Int.toNat_of_nonneg h]
  · have hpos : e.toNat = 0 := by omega
    have hcast : ((-e).toNat : ℤ) = -e := Int.toNat_of_nonneg (by omega)
    rw [hpos, pow_zero, one_div, ← zpow_natCast, hcast, zpow_neg, inv_inv]

theorem lt_ten_pow_length (n : ℕ) : n < 10 ^ (digits n).length :=
  (Nat.length_toDigits_le_iff (by decide) Nat.length_toDigits_pos).mp (Nat.le_refl _)

theorem ten_pow_le {n : ℕ} (h : n ≠ 0) : 10 ^ ((digits n).length - 1) ≤ n := by
  rcases Nat.eq_zero_or_pos ((digits n).length - 1) with hzero | hpos
  · rw [hzero]
    omega
  · by_contra hbad
    have hshort := (Nat.length_toDigits_le_iff (b := 10) (by decide) hpos).mpr (not_le.mp hbad)
    change (digits n).length ≤ _ at hshort
    omega

/-- The quantity without its sign. -/
def Exact.magnitude (x : Exact) : ℚ := x.coefficient * 10 ^ x.exponent

namespace Double

/-- The form in which a finite number is kept. -/
structure IsNormal (mantissa : ℕ) (exponent : ℤ) : Prop where
  lt_bound : mantissa < 2 ^ 53
  least_le : -1074 ≤ exponent
  le_greatest : exponent ≤ 971
  leading : 2 ^ 52 ≤ mantissa ∨ exponent = -1074

/-- How far below a number the rationals round to it, in units of its last place. -/
def reachBelow (mantissa : ℕ) (exponent : ℤ) : ℚ :=
  if mantissa = 2 ^ 52 ∧ -1074 < exponent then 1 / 4 else 1 / 2

/-- A rational in the interval around a number, given in units of the number's last place. -/
structure RoundsTo (u : ℚ) (mantissa : ℕ) (exponent : ℤ) : Prop where
  low : mantissa - reachBelow mantissa exponent ≤ u
  high : u ≤ mantissa + 1 / 2
  strict : mantissa % 2 = 1 → mantissa - reachBelow mantissa exponent < u ∧ u < mantissa + 1 / 2

theorem reachBelow_le (mantissa : ℕ) (exponent : ℤ) : reachBelow mantissa exponent ≤ 1 / 2 := by
  rw [reachBelow]
  split <;> norm_num

theorem reachBelow_pos (mantissa : ℕ) (exponent : ℤ) : 1 / 4 ≤ reachBelow mantissa exponent := by
  rw [reachBelow]
  split <;> norm_num

/-! ## Quotients -/

theorem roundQuotient_of_le {num den k : ℕ} (hden : 0 < den)
    (hlow : 2 * (k * den) ≤ 2 * num + den) (hhigh : 2 * num ≤ 2 * (k * den) + den)
    (hodd : k % 2 = 1 → 2 * (k * den) < 2 * num + den ∧ 2 * num < 2 * (k * den) + den) :
    roundQuotient num den = k := by
  have hsplit : num / den * den + num % den = num := Nat.div_add_mod' num den
  have hrest : num % den < den := Nat.mod_lt num hden
  rw [roundQuotient]
  generalize num / den = q at hsplit
  generalize num % den = r at hsplit hrest
  have hq : q ≤ k := by
    by_contra h
    have hmul : (k + 1) * den ≤ q * den := Nat.mul_le_mul_right den (by omega)
    rw [Nat.add_one_mul] at hmul
    omega
  have hk : k ≤ q + 1 := by
    by_contra h
    have hmul : (q + 2) * den ≤ k * den := Nat.mul_le_mul_right den (by omega)
    rw [Nat.add_mul] at hmul
    omega
  obtain rfl | rfl : k = q ∨ k = q + 1 := by omega
  · split
    · rfl
    · split <;> omega
  · have hmul : (q + 1) * den = q * den + den := Nat.add_one_mul q den
    split
    · omega
    · split <;> omega

/-- A quotient is rounded to the whole number that it is near to, and to an even one when it lies in
the middle of two. -/
theorem roundQuotient_eq {num den k : ℕ} (hden : 0 < den)
    (hlow : (k : ℚ) - 1 / 2 ≤ num / den) (hhigh : (num : ℚ) / den ≤ k + 1 / 2)
    (hodd : k % 2 = 1 → (k : ℚ) - 1 / 2 < num / den ∧ (num : ℚ) / den < k + 1 / 2) :
    roundQuotient num den = k := by
  have hpos : (0 : ℚ) < den := by exact_mod_cast hden
  rw [le_div_iff₀ hpos] at hlow
  rw [div_le_iff₀ hpos] at hhigh
  rw [lt_div_iff₀ hpos, div_lt_iff₀ hpos] at hodd
  apply roundQuotient_of_le hden
  · have h : (2 * (k * den) : ℚ) ≤ 2 * num + den := by linarith
    exact_mod_cast h
  · have h : (2 * num : ℚ) ≤ 2 * (k * den) + den := by linarith
    exact_mod_cast h
  · intro hk
    obtain ⟨hleft, hright⟩ := hodd hk
    have h : (2 * (k * den) : ℚ) < 2 * num + den := by linarith
    have h' : (2 * num : ℚ) < 2 * (k * den) + den := by linarith
    exact ⟨by exact_mod_cast h, by exact_mod_cast h'⟩

variable {num den : ℕ}

theorem cast_scaled (num den : ℕ) (e : ℤ) :
    ((num * Nat.pow 2 (-e).toNat : ℕ) : ℚ) / (den * Nat.pow 2 e.toNat : ℕ) =
      num / den / 2 ^ e := by
  have hnum : ((num * Nat.pow 2 (-e).toNat : ℕ) : ℚ) = num * 2 ^ (-e).toNat := by
    push_cast [Nat.pow_eq]
    rfl
  have hden : ((den * Nat.pow 2 e.toNat : ℕ) : ℚ) = den * 2 ^ e.toNat := by
    push_cast [Nat.pow_eq]
    rfl
  rw [hnum, hden, zpow_eq_div, div_div_div_eq]

theorem scaled_pos (hden : 0 < den) (e : ℤ) : 0 < den * Nat.pow 2 e.toNat :=
  Nat.mul_pos hden (Nat.pow_pos (by decide))

/-- The mantissa at an exponent is the whole number that the quotient is near to in units of that
exponent. -/
theorem mantissaAt_eq (hden : 0 < den) {e : ℤ} {k : ℕ}
    (hlow : (k : ℚ) - 1 / 2 ≤ num / den / 2 ^ e) (hhigh : (num : ℚ) / den / 2 ^ e ≤ k + 1 / 2)
    (hodd : k % 2 = 1 →
      (k : ℚ) - 1 / 2 < num / den / 2 ^ e ∧ (num : ℚ) / den / 2 ^ e < k + 1 / 2) :
    mantissaAt num den e = k := by
  rw [← cast_scaled] at hlow hhigh hodd
  exact roundQuotient_eq (scaled_pos hden e) hlow hhigh hodd

/-! ## Exponents -/

theorem two_zpow_add (u v : ℤ) : (2 : ℚ) ^ (u + v) = 2 ^ u * 2 ^ v := zpow_add₀ (by norm_num) u v

theorem log2_bounds {n : ℕ} (h : n ≠ 0) : (2 : ℚ) ^ (n.log2 : ℤ) ≤ n ∧
    (n : ℚ) < 2 ^ ((n.log2 : ℤ) + 1) := by
  constructor
  · rw [zpow_natCast]
    exact_mod_cast Nat.log2_self_le h
  · have hlt : n < 2 ^ (n.log2 + 1) := Nat.lt_log2_self
    have hcast : ((n.log2 : ℤ) + 1) = ((n.log2 + 1 : ℕ) : ℤ) := by push_cast; rfl
    rw [hcast, zpow_natCast]
    exact_mod_cast hlt

/-- The first estimate of the exponent is off by one at most. -/
theorem estimate_bounds (hnum : num ≠ 0) (hden : den ≠ 0) :
    (2 : ℚ) ^ ((num.log2 : ℤ) - den.log2 - 1) < num / den ∧
      (num : ℚ) / den < 2 ^ ((num.log2 : ℤ) - den.log2 + 1) := by
  obtain ⟨hnum₁, hnum₂⟩ := log2_bounds hnum
  obtain ⟨hden₁, hden₂⟩ := log2_bounds hden
  have hpos : (0 : ℚ) < den := by positivity
  constructor
  · rw [lt_div_iff₀ hpos]
    calc (2 : ℚ) ^ ((num.log2 : ℤ) - den.log2 - 1) * den
        < 2 ^ ((num.log2 : ℤ) - den.log2 - 1) * 2 ^ ((den.log2 : ℤ) + 1) := by gcongr
      _ = 2 ^ (num.log2 : ℤ) := by rw [← two_zpow_add]; congr 1; ring
      _ ≤ num := hnum₁
  · rw [div_lt_iff₀ hpos]
    calc (num : ℚ) < 2 ^ ((num.log2 : ℤ) + 1) := hnum₂
      _ = 2 ^ ((num.log2 : ℤ) - den.log2 + 1) * 2 ^ (den.log2 : ℤ) := by
          rw [← two_zpow_add]; congr 1; ring
      _ ≤ 2 ^ ((num.log2 : ℤ) - den.log2 + 1) * den := by gcongr

/-- The exponent at which the mantissa is taken, before it is rounded. -/
def exponentOf (num den : ℕ) : ℤ :=
  let estimate : ℤ := max (num.log2 - den.log2 - 53) leastExponent
  if mantissaBound ≤ (num * Nat.pow 2 (-estimate).toNat) / (den * Nat.pow 2 estimate.toNat)
  then estimate + 1 else estimate

theorem ofRatio_eq (negative : Bool) (num den : ℕ) :
    ofRatio negative num den =
      if mantissaAt num den (exponentOf num den) = mantissaBound then
        if greatestExponent < exponentOf num den + 1 then infinite negative
        else finite negative (Nat.pow 2 52) (exponentOf num den + 1)
      else if greatestExponent < exponentOf num den then infinite negative
      else finite negative (mantissaAt num den (exponentOf num den)) (exponentOf num den) := by
  change (let rounded : ℕ × ℤ :=
      if mantissaAt num den (exponentOf num den) = mantissaBound then
        (Nat.pow 2 52, exponentOf num den + 1)
      else (mantissaAt num den (exponentOf num den), exponentOf num den)
    if greatestExponent < rounded.2 then infinite negative
    else finite negative rounded.1 rounded.2) = _
  by_cases h : mantissaAt num den (exponentOf num den) = mantissaBound
  · simp only [if_pos h]
  · simp only [if_neg h]

/-- In units of its exponent a quotient is below the bound of mantissas, and not below half of it
unless the exponent is the least one. -/
theorem exponentOf_spec (hnum : num ≠ 0) (hden : den ≠ 0) :
    -1074 ≤ exponentOf num den ∧ (num : ℚ) / den / 2 ^ exponentOf num den < 2 ^ 53 ∧
      (2 ^ 52 ≤ (num : ℚ) / den / 2 ^ exponentOf num den ∨ exponentOf num den = -1074) := by
  obtain ⟨hlow, hhigh⟩ := estimate_bounds hnum hden
  rw [exponentOf]
  generalize hestimate : max ((num.log2 : ℤ) - den.log2 - 53) leastExponent = estimate
  have hfirst : (num.log2 : ℤ) - den.log2 - 53 ≤ estimate := hestimate ▸ le_max_left _ _
  have hleast : -1074 ≤ estimate := hestimate ▸ le_max_right _ _
  have hpos : (0 : ℚ) < 2 ^ estimate := by positivity
  have hfloor : mantissaBound ≤ (num * Nat.pow 2 (-estimate).toNat) /
      (den * Nat.pow 2 estimate.toNat) ↔ 2 ^ 53 ≤ (num : ℚ) / den / 2 ^ estimate := by
    have hscaled : 0 < den * Nat.pow 2 estimate.toNat := scaled_pos (Nat.pos_of_ne_zero hden) _
    have hcast : (0 : ℚ) < (den * Nat.pow 2 estimate.toNat : ℕ) := by exact_mod_cast hscaled
    rw [Nat.le_div_iff_mul_le hscaled, ← cast_scaled, le_div_iff₀ hcast]
    exact_mod_cast Iff.rfl
  have hbelow : (num : ℚ) / den / 2 ^ estimate < 2 ^ 54 := by
    rw [div_lt_iff₀ hpos]
    calc (num : ℚ) / den < 2 ^ ((num.log2 : ℤ) - den.log2 + 1) := hhigh
      _ ≤ 2 ^ (54 + estimate) := zpow_le_zpow_right₀ (by norm_num) (by omega)
      _ = 2 ^ 54 * 2 ^ estimate := by rw [two_zpow_add]; norm_num
  split
  · next h =>
      rw [hfloor] at h
      have hhalf : (num : ℚ) / den / 2 ^ (estimate + 1) = num / den / 2 ^ estimate / 2 := by
        rw [two_zpow_add, zpow_one, div_mul_eq_div_div]
      rw [hhalf]
      refine ⟨by omega, by linarith, Or.inl (by linarith)⟩
  · next h =>
      rw [hfloor, not_le] at h
      refine ⟨hleast, h, ?_⟩
      rcases le_total ((num.log2 : ℤ) - den.log2 - 53) leastExponent with hclamped | hfree
      · exact Or.inr (by rw [← hestimate, max_eq_right hclamped]; rfl)
      · left
        rw [max_eq_left hfree] at hestimate
        rw [le_div_iff₀ hpos]
        calc (2 : ℚ) ^ 52 * 2 ^ estimate = 2 ^ (52 + estimate) := by rw [two_zpow_add]; norm_num
          _ = 2 ^ ((num.log2 : ℤ) - den.log2 - 1) := by rw [← hestimate]; congr 1; ring
          _ ≤ num / den := hlow.le

/-! ## Numbers -/

theorem RoundsTo.low_half {u : ℚ} {mantissa : ℕ} {exponent : ℤ}
    (h : RoundsTo u mantissa exponent) : (mantissa : ℚ) - 1 / 2 ≤ u := by
  have hreach := reachBelow_le mantissa exponent
  linarith [h.low]

/-- A rational near to a number is taken at the exponent of the number, or below a power of two at
the next lower one. -/
theorem IsNormal.exponent_cases {q : ℚ} {mantissa : ℕ} {exponent e : ℤ}
    (h : IsNormal mantissa exponent) (hround : RoundsTo (q / 2 ^ exponent) mantissa exponent)
    (hleast : -1074 ≤ e) (hbound : q / 2 ^ e < 2 ^ 53)
    (hlead : 2 ^ 52 ≤ q / 2 ^ e ∨ e = -1074) :
    e = exponent ∨ e + 1 = exponent ∧ mantissa = 2 ^ 52 ∧ 2 ^ 53 - 1 / 2 ≤ q / 2 ^ e := by
  have hmantissa : (mantissa : ℚ) + 1 ≤ 2 ^ 53 := by exact_mod_cast h.lt_bound
  have hhigh := hround.high
  have hlow := hround.low_half
  -- Units at different exponents differ by a power of two.
  have hunits : ∀ k : ℕ, q / 2 ^ e = q / 2 ^ (e + k) * 2 ^ k := by
    intro k
    rw [two_zpow_add, zpow_natCast]
    field_simp
  have hunits' : ∀ k : ℕ, q / 2 ^ exponent = q / 2 ^ (exponent + k) * 2 ^ k := by
    intro k
    rw [two_zpow_add, zpow_natCast]
    field_simp
  rcases lt_trichotomy e exponent with hlt | heq | hgt
  · right
    obtain ⟨k, rfl⟩ : ∃ k : ℕ, exponent = e + (k + 1) := ⟨(exponent - e - 1).toNat, by omega⟩
    have hlead' : 2 ^ 52 ≤ mantissa := h.leading.resolve_right (by omega)
    have hcast : (2 ^ 52 : ℚ) ≤ mantissa := by exact_mod_cast hlead'
    have hk := hunits (k + 1)
    push_cast at hk
    obtain rfl : k = 0 := by
      by_contra hne
      have hpow : (2 : ℚ) ^ 2 ≤ 2 ^ (k + 1) := pow_le_pow_right₀ (by norm_num) (by omega)
      nlinarith
    norm_num at hk hround hlow hhigh
    have hsmall : (mantissa : ℚ) < 2 ^ 52 + 1 := by linarith
    have heq : mantissa = 2 ^ 52 := by
      have hnat : mantissa < 2 ^ 52 + 1 := by exact_mod_cast hsmall
      omega
    refine ⟨by push_cast; ring, heq, ?_⟩
    have hreach := hround.low
    rw [reachBelow, if_pos ⟨heq, by omega⟩, heq] at hreach
    push_cast at hreach
    linarith
  · exact Or.inl heq
  · obtain ⟨k, rfl⟩ : ∃ k : ℕ, e = exponent + (k + 1) := ⟨(e - exponent - 1).toNat, by omega⟩
    have hlead' := hlead.resolve_right (by have := h.least_le; omega)
    have hk := hunits' (k + 1)
    push_cast at hk
    have hpow : (2 : ℚ) ^ 1 ≤ 2 ^ (k + 1) := pow_le_pow_right₀ (by norm_num) (by omega)
    nlinarith

/-- A quotient near to a number is rounded to the number. -/
theorem ofRatio_of_roundsTo {mantissa : ℕ} {exponent : ℤ} (h : IsNormal mantissa exponent)
    (hnum : num ≠ 0) (hden : den ≠ 0)
    (hround : RoundsTo ((num : ℚ) / den / 2 ^ exponent) mantissa exponent) (negative : Bool) :
    ofRatio negative num den = finite negative mantissa exponent := by
  obtain ⟨hleast, hbound, hlead⟩ := exponentOf_spec hnum hden
  have hle : ¬greatestExponent < exponent := not_lt.mpr h.le_greatest
  rw [ofRatio_eq]
  rcases h.exponent_cases hround hleast hbound hlead with hsame | ⟨hnext, rfl, hnear⟩
  · rw [hsame]
    have hmantissa : mantissaAt num den exponent = mantissa := by
      refine mantissaAt_eq (Nat.pos_of_ne_zero hden) hround.low_half hround.high fun hodd ↦ ?_
      obtain ⟨hleft, hright⟩ := hround.strict hodd
      exact ⟨by linarith [reachBelow_le mantissa exponent], hright⟩
    have hne : mantissa ≠ mantissaBound := h.lt_bound.ne
    rw [hmantissa, if_neg hne, if_neg hle]
  · have hmantissa : mantissaAt num den (exponentOf num den) = mantissaBound := by
      have hcast : ((mantissaBound : ℕ) : ℚ) = 2 ^ 53 := by norm_num [mantissaBound]
      refine mantissaAt_eq (Nat.pos_of_ne_zero hden) (by rw [hcast]; exact hnear)
        (by rw [hcast]; linarith) fun hodd ↦ absurd hodd (by decide)
    rw [if_pos hmantissa, hnext, if_neg hle]
    rfl

/-! ## Decimal quantities -/

theorem place_bounds {x : Exact} (h : x.coefficient ≠ 0) :
    (10 : ℚ) ^ (x.place - 1) ≤ x.magnitude ∧ x.magnitude < 10 ^ x.place := by
  have hlength : 0 < (digits x.coefficient).length := Nat.length_toDigits_pos
  have hlt : (x.coefficient : ℚ) < 10 ^ (digits x.coefficient).length := by
    exact_mod_cast lt_ten_pow_length x.coefficient
  have hle : (10 : ℚ) ^ ((digits x.coefficient).length - 1) ≤ x.coefficient := by
    exact_mod_cast ten_pow_le h
  rw [Exact.place, Exact.magnitude]
  constructor
  · have hsplit : ((digits x.coefficient).length : ℤ) + x.exponent - 1 =
        ((digits x.coefficient).length - 1 : ℕ) + x.exponent := by omega
    rw [hsplit, zpow_add₀ (by norm_num), zpow_natCast]
    gcongr
  · rw [zpow_add₀ (by norm_num), zpow_natCast]
    gcongr

theorem magnitude_eq_ratio (x : Exact) :
    ((x.coefficient * Nat.pow 10 x.exponent.toNat : ℕ) : ℚ) / (Nat.pow 10 (-x.exponent).toNat : ℕ) =
      x.magnitude := by
  rw [Exact.magnitude, zpow_eq_div, ← mul_div_assoc]
  push_cast [Nat.pow_eq]
  rfl

theorem two_pow_le_ten_pow : (2 : ℚ) ^ 1025 ≤ 10 ^ 310 := by
  have hblock : (2 : ℚ) ^ 205 ≤ 10 ^ 62 := by norm_num
  calc (2 : ℚ) ^ 1025 = (2 ^ 205) ^ 5 := by rw [← pow_mul]
    _ ≤ (10 ^ 62) ^ 5 := pow_le_pow_left₀ (by positivity) hblock 5
    _ = 10 ^ 310 := by rw [← pow_mul]

/-- What is near to a number begins at a place that is not cut off. -/
theorem place_of_roundsTo {x : Exact} {mantissa : ℕ} {exponent : ℤ}
    (h : IsNormal mantissa exponent) (hpos : mantissa ≠ 0)
    (hround : RoundsTo (x.magnitude / 2 ^ exponent) mantissa exponent) :
    x.coefficient ≠ 0 ∧ -330 ≤ x.place ∧ x.place ≤ 310 := by
  have hunit : (0 : ℚ) < 2 ^ exponent := by positivity
  have hone : (1 : ℚ) ≤ mantissa := by exact_mod_cast Nat.one_le_iff_ne_zero.mpr hpos
  have hmantissa : (mantissa : ℚ) + 1 ≤ 2 ^ 53 := by exact_mod_cast h.lt_bound
  have hlow : 1 / 2 * 2 ^ exponent ≤ x.magnitude := by
    rw [← le_div_iff₀ hunit]
    linarith [hround.low_half]
  have hhigh : x.magnitude < 2 ^ 1024 := by
    calc x.magnitude ≤ (mantissa + 1 / 2) * 2 ^ exponent := by
          rw [← div_le_iff₀ hunit]
          exact hround.high
      _ < 2 ^ 53 * 2 ^ exponent := by
          gcongr
          linarith
      _ ≤ 2 ^ 53 * 2 ^ (971 : ℤ) := by
          gcongr
          · norm_num
          · exact h.le_greatest
      _ = 2 ^ 1024 := by
          rw [← zpow_natCast, ← zpow_natCast, ← two_zpow_add]
          norm_num
  have hne : x.coefficient ≠ 0 := by
    intro hzero
    rw [Exact.magnitude, hzero] at hlow
    push_cast at hlow
    linarith
  obtain ⟨hfirst, hlast⟩ := place_bounds hne
  refine ⟨hne, ?_, ?_⟩
  · by_contra hplace
    have htiny : x.magnitude < 1 / 2 * 2 ^ exponent := by
      calc x.magnitude < 10 ^ x.place := hlast
        _ ≤ 10 ^ (-331 : ℤ) := zpow_le_zpow_right₀ (by norm_num) (by omega)
        _ = (10 ^ 331)⁻¹ := by rw [zpow_neg, zpow_ofNat]
        _ ≤ (2 ^ 1075)⁻¹ := by
            apply inv_anti₀ (by positivity)
            calc (2 : ℚ) ^ 1075 = 2 ^ 1025 * 2 ^ 50 := by rw [← pow_add]
              _ ≤ 10 ^ 310 * 10 ^ 21 := by
                  apply mul_le_mul two_pow_le_ten_pow (by norm_num) (by positivity) (by positivity)
              _ = 10 ^ 331 := by rw [← pow_add]
        _ = 1 / 2 * 2 ^ (-1074 : ℤ) := by
            rw [zpow_neg, zpow_ofNat, one_div, ← mul_inv, ← pow_succ']
        _ ≤ 1 / 2 * 2 ^ exponent := by
            gcongr
            · norm_num
            · exact h.least_le
    exact absurd htiny hlow.not_gt
  · by_contra hplace
    have hhuge : (2 : ℚ) ^ 1024 ≤ x.magnitude := by
      calc (2 : ℚ) ^ 1024 ≤ 2 ^ 1025 := pow_le_pow_right₀ (by norm_num) (by norm_num)
        _ ≤ 10 ^ 310 := two_pow_le_ten_pow
        _ = 10 ^ (310 : ℤ) := (zpow_ofNat 10 310).symm
        _ ≤ 10 ^ (x.place - 1) := zpow_le_zpow_right₀ (by norm_num) (by omega)
        _ ≤ x.magnitude := hfirst
    exact absurd hhigh hhuge.not_gt

/-- A decimal quantity near to a number is rounded to the number. -/
theorem ofExact_of_roundsTo {x : Exact} {mantissa : ℕ} {exponent : ℤ}
    (h : IsNormal mantissa exponent) (hpos : mantissa ≠ 0)
    (hround : RoundsTo (x.magnitude / 2 ^ exponent) mantissa exponent) :
    ofExact x = finite x.negative mantissa exponent := by
  obtain ⟨hne, hleast, hgreatest⟩ := place_of_roundsTo h hpos hround
  rw [ofExact, if_neg (by omega), if_neg (by omega)]
  rw [← magnitude_eq_ratio] at hround
  exact ofRatio_of_roundsTo h (Nat.mul_ne_zero hne (Nat.pow_pos (by decide)).ne')
    (Nat.pow_pos (by decide)).ne' hround x.negative

end Double

end Criteria.Number
