import Criteria.Proofs.Numerals
import Criteria.Proofs.Rounding

/-!
# The shortest text of a number reads back

The decimal that is found for a number lies in the interval of the number: every grid point that is
taken is tested, and on the grid of seventeen digits the multiple below the number is never outside,
since the grid is finer than a quarter of the last place.  However the digits are laid out, the
numeral writes that decimal, and so it is read as the number.
-/

namespace Criteria.Number

/-! ## The interval -/

namespace RoundingInterval

theorem bound_div_scale (bound : ℕ) {den : ℕ} (ex : ℤ) :
    ((bound * Nat.pow 10 (-ex).toNat : ℕ) : ℚ) / (den * 10 ^ (-ex).toNat) = bound / den := by
  have hscale : (0 : ℚ) < 10 ^ (-ex).toNat := by positivity
  push_cast [Nat.pow_eq]
  exact mul_div_mul_right _ _ hscale.ne'

theorem point_div_scale (n : ℕ) {den : ℕ} (hden : 0 < den) (ex : ℤ) :
    ((n * den * Nat.pow 10 ex.toNat : ℕ) : ℚ) / (den * 10 ^ (-ex).toNat) = n * 10 ^ ex := by
  have hpos : (0 : ℚ) < den := by exact_mod_cast hden
  rw [zpow_eq_div, mul_comm n den]
  push_cast [Nat.pow_eq]
  rw [mul_assoc, mul_div_mul_left _ _ hpos.ne', mul_div_assoc]

/-- A bound of an interval compared with a point of a decimal grid. -/
theorem scaled_le_point_iff {bound den n : ℕ} (hden : 0 < den) (ex : ℤ) :
    bound * Nat.pow 10 (-ex).toNat ≤ n * den * Nat.pow 10 ex.toNat ↔
      (bound : ℚ) / den ≤ n * 10 ^ ex := by
  have hscale : (0 : ℚ) < den * 10 ^ (-ex).toNat := by positivity
  rw [← bound_div_scale bound ex, ← point_div_scale n hden, div_le_div_iff_of_pos_right hscale,
    Nat.cast_le]

theorem point_le_scaled_iff {bound den n : ℕ} (hden : 0 < den) (ex : ℤ) :
    n * den * Nat.pow 10 ex.toNat ≤ bound * Nat.pow 10 (-ex).toNat ↔
      (n : ℚ) * 10 ^ ex ≤ bound / den := by
  have hscale : (0 : ℚ) < den * 10 ^ (-ex).toNat := by positivity
  rw [← bound_div_scale bound ex, ← point_div_scale n hden, div_le_div_iff_of_pos_right hscale,
    Nat.cast_le]

theorem contains_iff {i : RoundingInterval} (hden : 0 < i.den) (n : ℕ) (ex : ℤ) :
    i.contains n ex = true ↔
      (i.low : ℚ) / i.den ≤ n * 10 ^ ex ∧ (n : ℚ) * 10 ^ ex ≤ i.high / i.den ∧
        (i.closed = false →
          (i.low : ℚ) / i.den < n * 10 ^ ex ∧ (n : ℚ) * 10 ^ ex < i.high / i.den) := by
  rw [← scaled_le_point_iff hden, ← point_le_scaled_iff hden, ← not_le, ← not_le,
    ← point_le_scaled_iff hden, ← scaled_le_point_iff hden]
  rw [contains]
  cases i.closed with
  | true =>
      simp only [if_true, Bool.and_eq_true, decide_eq_true_eq]
      exact ⟨fun h ↦ ⟨h.1, h.2, fun hfalse ↦ absurd hfalse (by decide)⟩, fun h ↦ ⟨h.1, h.2.1⟩⟩
  | false =>
      simp only [Bool.false_eq_true, if_false, Bool.and_eq_true, decide_eq_true_eq, not_le]
      exact ⟨fun h ↦ ⟨h.1.le, h.2.le, fun _ ↦ h⟩, fun h ↦ h.2.2 trivial⟩

variable {mantissa : ℕ} {exponent : ℤ}

theorem ofDouble_den_pos : 0 < (ofDouble mantissa exponent).den :=
  Nat.mul_pos (by decide) (Nat.pow_pos (by decide))

/-- A bound of the interval of a number in units of the number's last place. -/
theorem scaled_div_den (k : ℕ) :
    ((k * Nat.pow 2 exponent.toNat : ℕ) : ℚ) / (ofDouble mantissa exponent).den =
      k / 4 * 2 ^ exponent := by
  rw [ofDouble, zpow_eq_div]
  push_cast [Nat.pow_eq]
  field_simp

theorem low_div_den (hpos : mantissa ≠ 0) :
    ((ofDouble mantissa exponent).low : ℚ) / (ofDouble mantissa exponent).den =
      (mantissa - Double.reachBelow mantissa exponent) * 2 ^ exponent := by
  rw [Double.reachBelow]
  by_cases h : mantissa = 2 ^ 52 ∧ -1074 < exponent
  · have hlow : (ofDouble mantissa exponent).low =
        (4 * mantissa - 1) * Nat.pow 2 exponent.toNat := by
      have hcond : mantissa = Nat.pow 2 52 ∧ Double.leastExponent < exponent := h
      simp only [ofDouble, if_pos hcond, Nat.sub_mul, Nat.one_mul]
    rw [hlow, scaled_div_den, if_pos h, Nat.cast_sub (by omega)]
    push_cast
    ring
  · have hlow : (ofDouble mantissa exponent).low =
        (4 * mantissa - 2) * Nat.pow 2 exponent.toNat := by
      have hcond : ¬(mantissa = Nat.pow 2 52 ∧ Double.leastExponent < exponent) := h
      simp only [ofDouble, if_neg hcond, Nat.sub_mul]
    rw [hlow, scaled_div_den, if_neg h, Nat.cast_sub (by omega)]
    push_cast
    ring

theorem high_div_den :
    ((ofDouble mantissa exponent).high : ℚ) / (ofDouble mantissa exponent).den =
      (mantissa + 1 / 2) * 2 ^ exponent := by
  have hhigh : (ofDouble mantissa exponent).high =
      (4 * mantissa + 2) * Nat.pow 2 exponent.toNat := by
    simp only [ofDouble, Nat.add_mul]
  rw [hhigh, scaled_div_den]
  push_cast
  ring

theorem value_div_den :
    ((ofDouble mantissa exponent).value : ℚ) / (ofDouble mantissa exponent).den =
      mantissa * 2 ^ exponent := by
  have hvalue : (ofDouble mantissa exponent).value = 4 * mantissa * Nat.pow 2 exponent.toNat := rfl
  rw [hvalue, scaled_div_den]
  push_cast
  ring

/-- The interval of a number holds what is rounded to the number. -/
theorem contains_ofDouble_iff (hpos : mantissa ≠ 0) (n : ℕ) (ex : ℤ) :
    (ofDouble mantissa exponent).contains n ex = true ↔
      Double.RoundsTo (n * 10 ^ ex / 2 ^ exponent) mantissa exponent := by
  have hunit : (0 : ℚ) < 2 ^ exponent := by positivity
  have hclosed : (ofDouble mantissa exponent).closed = false ↔ mantissa % 2 = 1 := by
    simp only [ofDouble, decide_eq_false_iff_not]
    omega
  rw [contains_iff ofDouble_den_pos, low_div_den hpos, high_div_den, hclosed,
    ← le_div_iff₀ hunit, ← div_le_iff₀ hunit, ← lt_div_iff₀ hunit, ← div_lt_iff₀ hunit]
  exact ⟨fun ⟨hlow, hhigh, hstrict⟩ ↦ ⟨hlow, hhigh, hstrict⟩,
    fun ⟨hlow, hhigh, hstrict⟩ ↦ ⟨hlow, hhigh, hstrict⟩⟩

/-! ## The search -/

theorem contains_of_nearest? {i : RoundingInterval} {ex : ℤ} {n : ℕ}
    (h : i.nearest? ex = some n) : i.contains n ex = true := by
  simp only [nearest?] at h
  split at h
  · next hdown hup =>
      obtain rfl := Option.some.inj h
      split
      · exact hdown
      · split
        · exact hup
        · rcases Nat.mod_two_eq_zero_or_one
              (i.value * Nat.pow 10 (-ex).toNat / (i.den * Nat.pow 10 ex.toNat)) with heven | hodd
          · rw [heven]
            exact hdown
          · rw [hodd]
            exact hup
  · next hdown _ => exact Option.some.inj h ▸ hdown
  · next hup => exact Option.some.inj h ▸ hup
  · exact absurd h nofun

theorem exists_nearest? {i : RoundingInterval} {ex : ℤ}
    (h : i.contains (i.value * Nat.pow 10 (-ex).toNat / (i.den * Nat.pow 10 ex.toNat)) ex = true) :
    ∃ n, i.nearest? ex = some n := by
  simp only [nearest?, h]
  split
  · exact ⟨_, rfl⟩
  · exact ⟨_, rfl⟩
  · next hfalse _ => exact absurd hfalse (by decide)
  · next hfalse _ => exact absurd hfalse (by decide)

/-- The search ends at a decimal in the interval when its last grid has one. -/
theorem contains_shortestFrom {i : RoundingInterval} {lead : ℤ} {tries count : ℕ}
    (h : ∃ n, i.nearest? (lead - (count + tries : ℕ)) = some n) :
    i.contains (i.shortestFrom lead tries count).1 (i.shortestFrom lead tries count).2 = true := by
  induction tries generalizing count with
  | zero =>
      obtain ⟨n, hn⟩ := h
      rw [Nat.add_zero] at hn
      rw [shortestFrom, hn]
      exact contains_of_nearest? hn
  | succ tries ih =>
      rw [shortestFrom]
      split
      · next n hn => exact contains_of_nearest? hn
      · rw [Nat.add_left_comm, Nat.add_comm tries] at h
        exact ih h

/-- The leading exponent of an interval is not above the value. -/
theorem ten_zpow_leadingExponent_le {i : RoundingInterval} (hden : 0 < i.den)
    (hvalue : i.value ≠ 0) :
    (10 : ℚ) ^ i.leadingExponent ≤ i.value / i.den := by
  have hpos : (0 : ℚ) < i.den := by exact_mod_cast hden
  simp only [leadingExponent]
  generalize hguess : ((digits i.value).length : ℤ) - (digits i.den).length = guess
  split
  · next h =>
      have hcast : ((1 * i.den * Nat.pow 10 guess.toNat : ℕ)) ≤
          i.value * Nat.pow 10 (-guess).toNat := by rwa [Nat.one_mul]
      rw [point_le_scaled_iff hden] at hcast
      simpa using hcast
  · have hlength : 0 < (digits i.value).length := Nat.length_toDigits_pos
    have hlow : (10 : ℚ) ^ ((digits i.value).length - 1) ≤ i.value := by
      exact_mod_cast ten_pow_le hvalue
    have hhigh : (i.den : ℚ) ≤ 10 ^ (digits i.den).length := by
      exact_mod_cast (lt_ten_pow_length i.den).le
    have hsplit : guess - 1 =
        ((digits i.value).length - 1 : ℕ) - ((digits i.den).length : ℤ) := by omega
    rw [hsplit, zpow_sub₀ (by norm_num), zpow_natCast, zpow_natCast]
    gcongr

variable {mantissa : ℕ} {exponent : ℤ}

/-- Seventeen digits suffice. -/
theorem contains_seventeen (h : mantissa < 2 ^ 53) (hpos : mantissa ≠ 0) {ex : ℤ}
    (hex : ex = (ofDouble mantissa exponent).leadingExponent - 17) :
    (ofDouble mantissa exponent).contains ((ofDouble mantissa exponent).value *
      Nat.pow 10 (-ex).toNat / ((ofDouble mantissa exponent).den * Nat.pow 10 ex.toNat)) ex =
        true := by
  have hvalue : (ofDouble mantissa exponent).value ≠ 0 := by
    simp only [ofDouble]
    exact Nat.mul_ne_zero (by omega) (Nat.pow_pos (by decide)).ne'
  have hlead := ten_zpow_leadingExponent_le ofDouble_den_pos hvalue
  rw [value_div_den] at hlead
  have hden : 0 < (ofDouble mantissa exponent).den * Nat.pow 10 ex.toNat :=
    Nat.mul_pos ofDouble_den_pos (Nat.pow_pos (by decide))
  generalize hdown : (ofDouble mantissa exponent).value * Nat.pow 10 (-ex).toNat /
    ((ofDouble mantissa exponent).den * Nat.pow 10 ex.toNat) = down
  -- The number lies between two neighbours on the grid.
  have hbelow : (down : ℚ) * 10 ^ ex ≤ mantissa * 2 ^ exponent := by
    rw [← value_div_den, ← point_le_scaled_iff ofDouble_den_pos, mul_assoc, ← hdown]
    exact Nat.div_mul_le_self _ _
  have habove : (mantissa : ℚ) * 2 ^ exponent < (down + 1 : ℕ) * 10 ^ ex := by
    rw [← value_div_den, ← not_le, ← point_le_scaled_iff ofDouble_den_pos, not_le, mul_assoc,
      ← hdown]
    exact Nat.lt_mul_of_div_lt (Nat.lt_succ_self _) hden
  have hunit : (0 : ℚ) < 2 ^ exponent := by positivity
  have hgrid : (10 : ℚ) ^ ex * 10 ^ 17 ≤ mantissa * 2 ^ exponent := by
    rw [hex, ← zpow_natCast (10 : ℚ) 17, ← zpow_add₀ (by norm_num)]
    simpa using hlead
  have hmantissa : (mantissa : ℚ) < 2 ^ 53 := by exact_mod_cast h
  have hstep : (10 : ℚ) ^ ex < 1 / 4 * 2 ^ exponent := by
    have hscaled : (10 : ℚ) ^ ex * 10 ^ 17 < 1 / 4 * 2 ^ exponent * 10 ^ 17 := by
      calc (10 : ℚ) ^ ex * 10 ^ 17 ≤ mantissa * 2 ^ exponent := hgrid
        _ < 2 ^ 53 * 2 ^ exponent := by gcongr
        _ ≤ 1 / 4 * 10 ^ 17 * 2 ^ exponent := by gcongr; norm_num
        _ = 1 / 4 * 2 ^ exponent * 10 ^ 17 := by ring
    exact lt_of_mul_lt_mul_right hscaled (by positivity)
  have hreach := Double.reachBelow_pos mantissa exponent
  have hlow : (mantissa : ℚ) - Double.reachBelow mantissa exponent <
      down * 10 ^ ex / 2 ^ exponent := by
    rw [lt_div_iff₀ hunit]
    push_cast at habove
    nlinarith
  have hhigh : (down : ℚ) * 10 ^ ex / 2 ^ exponent < mantissa + 1 / 2 := by
    rw [div_lt_iff₀ hunit]
    linarith
  exact (contains_ofDouble_iff hpos down ex).mpr ⟨hlow.le, hhigh.le, fun _ ↦ ⟨hlow, hhigh⟩⟩

/-- The shortest decimal of a number is rounded to the number. -/
theorem roundsTo_shortest (exponent : ℤ) (h : mantissa < 2 ^ 53) (hpos : mantissa ≠ 0) :
    Double.RoundsTo ((ofDouble mantissa exponent).shortest.1 *
      10 ^ (ofDouble mantissa exponent).shortest.2 / 2 ^ exponent) mantissa exponent := by
  rw [← contains_ofDouble_iff hpos]
  exact contains_shortestFrom (exists_nearest? (contains_seventeen h hpos (by simp)))

end RoundingInterval

/-! ## The layout -/

namespace Numeral

theorem magnitude_quantity (negative : Bool) (n : Numeral) :
    (n.quantity negative).magnitude =
      numeralValue (n.whole ++ n.places) * 10 ^ (n.power.getD 0 - n.places.length) := rfl

/-- Digits before or after which zeros are written out. -/
theorem exists_positional {ds : List Char} (h : IsNumeral ds) (hne : ds ≠ [])
    (hlead : ds.head? ≠ some '0') (l : FloatLayout) (point : ℤ) :
    ∃ n : Numeral, n.IsValid ∧ n.chars l = FloatLayout.positional ds point ∧
      ∀ negative, (n.quantity negative).magnitude =
        numeralValue ds * 10 ^ (point - ds.length) := by
  rw [FloatLayout.positional]
  split
  · next hpoint =>
      have hplaces : List.replicate (-point).toNat '0' ++ ds ≠ [] :=
        List.append_ne_nil_of_right_ne_nil _ hne
      refine ⟨⟨['0'], List.replicate (-point).toNat '0' ++ ds, none⟩,
        ⟨isWhole_digits 0, (isNumeral_zeros _).append h, Or.inl hplaces⟩, ?_, ?_⟩
      · rw [chars, placeChars_of_ne_nil hplaces, powerChars, List.append_nil]
        rfl
      · intro negative
        have hzeros : ['0'] ++ (List.replicate (-point).toNat '0' ++ ds) =
            List.replicate ((-point).toNat + 1) '0' ++ ds := rfl
        have hexponent : (0 : ℤ) - (List.replicate (-point).toNat '0' ++ ds).length =
            point - ds.length := by
          rw [List.length_append, List.length_replicate]
          omega
        rw [magnitude_quantity, Option.getD_none, hzeros, numeralValue_zeros_append, hexponent]
  · next hpoint =>
      have hkept : 0 < point.toNat := by omega
      have hwhole : IsWhole (ds.take point.toNat ++
          List.replicate (point.toNat - ds.length) '0') := by
        obtain ⟨d, rest, rfl⟩ := List.exists_cons_of_ne_nil hne
        obtain ⟨k, hk⟩ : ∃ k, point.toNat = k + 1 := ⟨point.toNat - 1, by omega⟩
        rw [hk, List.take_succ_cons, List.cons_append]
        refine ⟨?_, List.cons_ne_nil _ _, Or.inr hlead⟩
        rw [← List.cons_append, ← List.take_succ_cons]
        exact (h.subset (List.take_subset _ _)).append (isNumeral_zeros _)
      by_cases hlength : ds.length ≤ point.toNat
      · refine ⟨⟨ds.take point.toNat ++ List.replicate (point.toNat - ds.length) '0', ['0'], none⟩,
          ⟨hwhole, isNumeral_zeros 1, Or.inl (List.cons_ne_nil _ _)⟩, ?_, ?_⟩
        · simp only [chars, placeChars, powerChars, List.drop_eq_nil_of_le hlength,
            List.isEmpty_nil, if_true, List.append_nil]
        · intro negative
          have hzeros : ds.take point.toNat ++ List.replicate (point.toNat - ds.length) '0' ++
              ['0'] = ds ++ List.replicate (point.toNat - ds.length + 1) '0' := by
            rw [List.take_of_length_le hlength, List.append_assoc, List.replicate_succ']
          have hexponent : point - ds.length =
              ((point.toNat - ds.length + 1 : ℕ) : ℤ) + (0 - 1) := by omega
          rw [magnitude_quantity, hzeros, numeralValue_append_zeros, hexponent,
            zpow_add₀ (by norm_num), zpow_natCast, ← mul_assoc]
          push_cast
          rfl
      · have hplaces : ds.drop point.toNat ≠ [] := by
          rw [ne_eq, List.drop_eq_nil_iff]
          exact hlength
        have hzeros : point.toNat - ds.length = 0 := by omega
        refine ⟨⟨ds.take point.toNat ++ List.replicate (point.toNat - ds.length) '0',
          ds.drop point.toNat, none⟩,
          ⟨hwhole, h.subset (List.drop_subset _ _), Or.inl hplaces⟩, ?_, ?_⟩
        · simp only [chars, placeChars_of_ne_nil hplaces, powerChars, List.append_nil,
            List.isEmpty_eq_false_iff.mpr hplaces, Bool.false_eq_true, if_false]
        · intro negative
          have hexponent : (0 : ℤ) - (ds.drop point.toNat).length = point - ds.length := by
            rw [List.length_drop]
            omega
          rw [magnitude_quantity, hzeros, List.replicate_zero, List.append_nil,
            List.take_append_drop, Option.getD_none, hexponent]

theorem exists_exponential {ds : List Char} (h : IsNumeral ds) (hne : ds ≠ [])
    (hlead : ds.head? ≠ some '0') (l : FloatLayout) (point : ℤ)
    (hlayout : ¬(l.positionalFrom ≤ point - 1 ∧ point - 1 < l.positionalBelow)) :
    ∃ n : Numeral, n.IsValid ∧ n.chars l = l.text ds point ∧
      ∀ negative, (n.quantity negative).magnitude =
        numeralValue ds * 10 ^ (point - ds.length) := by
  obtain ⟨d, rest, rfl⟩ := List.exists_cons_of_ne_nil hne
  refine ⟨⟨[d], rest, some (point - 1)⟩,
    ⟨⟨h.subset (by simp), by simp, Or.inr hlead⟩, h.subset (by simp), Or.inr rfl⟩, ?_, ?_⟩
  · rw [FloatLayout.text, if_neg hlayout]
    cases rest <;> rfl
  · intro negative
    have hexponent : point - 1 - rest.length = point - (d :: rest).length := by
      rw [List.length_cons]
      omega
    rw [magnitude_quantity, Option.getD_some, hexponent, List.singleton_append]

/-- However digits are laid out, a numeral is written with their value. -/
theorem exists_text {ds : List Char} (h : IsNumeral ds) (hne : ds ≠ [])
    (hlead : ds.head? ≠ some '0') (l : FloatLayout) (point : ℤ) :
    ∃ n : Numeral, n.IsValid ∧ n.chars l = l.text ds point ∧
      ∀ negative, (n.quantity negative).magnitude =
        numeralValue ds * 10 ^ (point - ds.length) := by
  by_cases hlayout : l.positionalFrom ≤ point - 1 ∧ point - 1 < l.positionalBelow
  · rw [FloatLayout.text, if_pos hlayout]
    exact exists_positional h hne hlead l point
  · exact exists_exponential h hne hlead l point hlayout

end Numeral

/-- Digits are those that are kept, and zeros. -/
theorem exists_eq_append_zeros (ds : List Char) :
    ∃ count, ds = ds.take (ds.reverse.dropWhile (· == '0')).length ++
      List.replicate count '0' := by
  have hzeros : ds.reverse.takeWhile (· == '0') =
      List.replicate (ds.reverse.takeWhile (· == '0')).length '0' :=
    List.eq_replicate_length.mpr fun c hc ↦
      beq_iff_eq.mp (List.all_eq_true.mp List.all_takeWhile c hc)
  have hsplit : ds = (ds.reverse.dropWhile (· == '0')).reverse ++
      (ds.reverse.takeWhile (· == '0')).reverse := by
    rw [← List.reverse_append, List.takeWhile_append_dropWhile, List.reverse_reverse]
  have htake : ds.take (ds.reverse.dropWhile (· == '0')).length =
      (ds.reverse.dropWhile (· == '0')).reverse :=
    (congrArg (List.take _) hsplit).trans (List.take_left' List.length_reverse)
  refine ⟨(ds.reverse.takeWhile (· == '0')).length, ?_⟩
  rw [htake, ← List.reverse_replicate, ← hzeros]
  exact hsplit

/-- The digits of a number without the zeros at their end. -/
theorem kept_digits {n : ℕ} (hn : n ≠ 0) {kept : List Char}
    (h : (digits n).take ((digits n).reverse.dropWhile (· == '0')).length = kept) :
    IsNumeral kept ∧ kept ≠ [] ∧ kept.head? ≠ some '0' ∧ ∃ count,
      n = numeralValue kept * 10 ^ count ∧ (digits n).length = kept.length + count := by
  obtain ⟨count, hsplit⟩ := exists_eq_append_zeros (digits n)
  rw [h] at hsplit
  have hvalue : n = numeralValue kept * 10 ^ count := by
    rw [← numeralValue_append_zeros, ← hsplit, numeralValue_digits]
  have hne : kept ≠ [] := by
    rintro rfl
    exact hn (by rw [hvalue]; exact Nat.zero_mul _)
  refine ⟨?_, hne, ?_, count, hvalue, ?_⟩
  · exact (isNumeral_digits n).subset (hsplit ▸ List.subset_append_left _ _)
  · obtain ⟨d, rest, rfl⟩ := List.exists_cons_of_ne_nil hne
    have hhead := head?_digits hn
    rwa [hsplit] at hhead
  · rw [hsplit, List.length_append, List.length_replicate]

namespace Double

/-- The text of a finite number without its sign. -/
def magnitudeChars (mantissa : ℕ) (exponent : ℤ) : List Char :=
  if mantissa = 0 then ['0', '.', '0']
  else
    let (n, e) := (RoundingInterval.ofDouble mantissa exponent).shortest
    let ds := digits n
    layout.text (ds.take (ds.reverse.dropWhile (· == '0')).length) (ds.length + e)

theorem toList_text_finite (negative : Bool) (mantissa : ℕ) (exponent : ℤ) :
    (finite negative mantissa exponent).text.toList =
      (if negative then ['-'] else []) ++ magnitudeChars mantissa exponent := by
  simp only [text, String.toList_ofList]
  cases negative <;> rfl

/-- The text of a number is a numeral that is read as the number. -/
theorem IsNormal.exists_numeral {mantissa : ℕ} {exponent : ℤ}
    (h : IsNormal mantissa exponent) : ∃ n : Numeral, n.IsValid ∧
      n.chars layout = magnitudeChars mantissa exponent ∧
      ∀ negative, ofExact (n.quantity negative) = finite negative mantissa exponent := by
  by_cases hpos : mantissa = 0
  · have hexponent : exponent = -1074 := h.leading.resolve_left (by omega)
    refine ⟨⟨['0'], ['0'], none⟩, ⟨isWhole_digits 0, isNumeral_zeros 1, Or.inl (by simp)⟩, ?_, ?_⟩
    · rw [magnitudeChars, if_pos hpos]
      rfl
    · intro negative
      rw [hpos, hexponent]
      rfl
  · have hround := RoundingInterval.roundsTo_shortest exponent h.lt_bound hpos
    simp only [magnitudeChars, if_neg hpos]
    generalize (RoundingInterval.ofDouble mantissa exponent).shortest = decimal at hround
    obtain ⟨n, e⟩ := decimal
    dsimp only at hround ⊢
    have hn : n ≠ 0 := by
      rintro rfl
      have hlow := hround.low_half
      have hone : (1 : ℚ) ≤ mantissa := by exact_mod_cast Nat.one_le_iff_ne_zero.mpr hpos
      push_cast at hlow
      rw [zero_mul, zero_div] at hlow
      linarith
    generalize hkept : (digits n).take ((digits n).reverse.dropWhile (· == '0')).length = kept
    obtain ⟨hnumeral, hne, hlead, count, hvalue, hlength⟩ := kept_digits hn hkept
    obtain ⟨numeral, hvalid, hchars, hmagnitude⟩ :=
      Numeral.exists_text hnumeral hne hlead layout ((digits n).length + e)
    refine ⟨numeral, hvalid, hchars, fun negative ↦ ?_⟩
    have hexponent : ((digits n).length : ℤ) + e - kept.length = count + e := by omega
    have hdecimal : (numeral.quantity negative).magnitude = n * 10 ^ e := by
      rw [hmagnitude, hexponent, zpow_add₀ (by norm_num), zpow_natCast, ← mul_assoc, hvalue]
      push_cast
      rfl
    rw [← hdecimal] at hround
    exact ofExact_of_roundsTo h hpos hround

end Double

end Criteria.Number
