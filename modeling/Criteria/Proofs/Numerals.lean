import Mathlib.Algebra.Ring.Nat
import Criteria.Json.Reader
import Criteria.Json.Writer

/-!
# Numerals

A numeral is read digit by digit up to the first character that is no digit, and the digits that a
number is written with are read as the number.  The reader of documents takes a numeral with a point
or an exponent apart into its digits and the power of ten that they count.
-/

namespace Criteria.Number

def IsNumeral (cs : List Char) : Prop := ∀ c ∈ cs, c.isDigit = true

/-- What follows a numeral is no digit. -/
def Halts (cs : List Char) : Prop := ∀ c ∈ cs.head?, c.isDigit = false

/-- The number that digits write. -/
def numeralValue (cs : List Char) : Nat := Nat.ofDigitChars 10 cs 0

/-- The values of digits. -/
def digitValues (cs : List Char) : List Nat := cs.filterMap Text.asciiDigit?

theorem isDigit_iff {c : Char} : c.isDigit = true ↔ '0' ≤ c ∧ c ≤ '9' := by
  simp [Char.isDigit, Char.le_def]

theorem asciiDigit?_of_isDigit {c : Char} (h : c.isDigit = true) :
    Text.asciiDigit? c = some (c.toNat - '0'.toNat) := by
  rw [Text.asciiDigit?, if_pos (isDigit_iff.mp h)]

theorem isSome_asciiDigit? (c : Char) : (Text.asciiDigit? c).isSome = c.isDigit := by
  cases h : c.isDigit with
  | true => rw [asciiDigit?_of_isDigit h]; rfl
  | false =>
      have hnot : ¬('0' ≤ c ∧ c ≤ '9') := by
        rw [← isDigit_iff, h]
        exact Bool.false_ne_true
      rw [Text.asciiDigit?, if_neg hnot]
      rfl

theorem IsNumeral.append {cs others : List Char} (h : IsNumeral cs) (hothers : IsNumeral others) :
    IsNumeral (cs ++ others) := fun c hc ↦ (List.mem_append.mp hc).elim (h c) (hothers c)

theorem IsNumeral.subset {cs others : List Char} (h : IsNumeral cs) (hsubset : others ⊆ cs) :
    IsNumeral others := fun c hc ↦ h c (hsubset hc)

theorem isNumeral_zeros (count : Nat) : IsNumeral (List.replicate count '0') := by
  intro c hc
  obtain ⟨-, rfl⟩ := List.mem_replicate.mp hc
  rfl

theorem isNumeral_digits (n : Nat) : IsNumeral (digits n) := fun _ hc ↦
  Nat.isDigit_of_mem_toDigits (by decide) (by decide) hc

/-! ## Values -/

theorem IsNumeral.length_digitValues {cs : List Char} (h : IsNumeral cs) :
    (digitValues cs).length = cs.length := by
  induction cs with
  | nil => rfl
  | cons c rest ih =>
      have hc := asciiDigit?_of_isDigit (h c List.mem_cons_self)
      rw [digitValues, List.filterMap_cons_some hc, List.length_cons, List.length_cons]
      exact congrArg (· + 1) (ih fun d hd ↦ h d (List.mem_cons_of_mem c hd))

theorem digitValues_append (cs others : List Char) :
    digitValues (cs ++ others) = digitValues cs ++ digitValues others :=
  List.filterMap_append

theorem IsNumeral.ofDigits_digitValues {cs : List Char} (h : IsNumeral cs) :
    Text.ofDigits 10 (digitValues cs) = numeralValue cs := by
  have hfold : ∀ start : Nat, (digitValues cs).foldl (fun total d ↦ total * 10 + d) start =
      Nat.ofDigitChars 10 cs start := by
    induction cs with
    | nil => exact fun _ ↦ rfl
    | cons c rest ih =>
        intro start
        have hc := asciiDigit?_of_isDigit (h c List.mem_cons_self)
        have hrest := ih fun d hd ↦ h d (List.mem_cons_of_mem c hd)
        rw [digitValues, List.filterMap_cons_some hc, List.foldl_cons, Nat.ofDigitChars_cons,
          Nat.mul_comm 10]
        exact hrest _
  exact hfold 0

theorem numeralValue_digits (n : Nat) : numeralValue (digits n) = n :=
  Nat.ofDigitChars_ten_toDigits

theorem numeralValue_append (cs others : List Char) :
    numeralValue (cs ++ others) = numeralValue cs * 10 ^ others.length + numeralValue others := by
  rw [numeralValue, Nat.ofDigitChars_append, Nat.ofDigitChars_eq_ofDigitChars_zero, Nat.mul_comm]
  rfl

theorem numeralValue_zeros (count : Nat) : numeralValue (List.replicate count '0') = 0 := by
  rw [numeralValue, Nat.ofDigitChars_replicate_zero, Nat.mul_zero]

theorem numeralValue_zeros_append (count : Nat) (cs : List Char) :
    numeralValue (List.replicate count '0' ++ cs) = numeralValue cs := by
  rw [numeralValue_append, numeralValue_zeros, Nat.zero_mul, Nat.zero_add]

theorem numeralValue_append_zeros (cs : List Char) (count : Nat) :
    numeralValue (cs ++ List.replicate count '0') = numeralValue cs * 10 ^ count := by
  rw [numeralValue_append, numeralValue_zeros, List.length_replicate, Nat.add_zero]

theorem head?_digits {n : Nat} (h : n ≠ 0) : (digits n).head? ≠ some '0' := by
  induction n using Nat.strongRecOn with
  | ind n ih =>
      rw [digits, Nat.toDigits_eq_if (by decide)]
      split
      · next hlt =>
          rw [List.head?_cons, ne_eq, Option.some.injEq]
          intro hzero
          have hvalue := congrArg (fun c ↦ numeralValue [c]) hzero
          have hself : numeralValue [n.digitChar] = n := by
            rw [← Nat.toDigits_of_lt_base hlt]
            exact numeralValue_digits n
          rw [hself] at hvalue
          exact h hvalue
      · next hge =>
          obtain ⟨c, rest, hfirst⟩ := List.exists_cons_of_ne_nil
            (Nat.toDigits_ne_nil : Nat.toDigits 10 (n / 10) ≠ [])
          have hhead := ih (n / 10) (by omega) (by omega)
          rw [digits, hfirst] at hhead
          rw [hfirst, List.cons_append]
          exact hhead

/-! ## Reading digits -/

theorem IsNumeral.digitValues_eq_cons {cs : List Char} (h : IsNumeral cs) (hne : cs ≠ []) :
    ∃ d ds, digitValues cs = d :: ds := by
  apply List.exists_cons_of_ne_nil
  intro hnil
  have hlength := h.length_digitValues
  rw [hnil] at hlength
  exact hne (List.eq_nil_of_length_eq_zero hlength.symm)

theorem spanDigits_append {ds rest : List Char} (h : IsNumeral ds) (hrest : Halts rest) :
    Exact.spanDigits (ds ++ rest) = (digitValues ds, rest) := by
  have hall : ∀ c ∈ ds, (Text.asciiDigit? c).isSome = true := fun c hc ↦
    (isSome_asciiDigit? c).trans (h c hc)
  have hstop : rest.takeWhile (fun c ↦ (Text.asciiDigit? c).isSome) = [] ∧
      rest.dropWhile (fun c ↦ (Text.asciiDigit? c).isSome) = rest := by
    cases rest with
    | nil => exact ⟨rfl, rfl⟩
    | cons c others =>
        have hc : ¬(Text.asciiDigit? c).isSome = true := by
          rw [isSome_asciiDigit?, hrest c rfl]
          exact Bool.false_ne_true
        exact ⟨List.takeWhile_cons_of_neg hc, List.dropWhile_cons_of_neg hc⟩
  rw [Exact.spanDigits, List.takeWhile_append_of_pos hall, List.dropWhile_append_of_pos hall,
    hstop.1, hstop.2, List.append_nil]
  rfl

/-! ## Numerals with a point or an exponent -/

/-- Digits that may stand before a point. -/
structure IsWhole (cs : List Char) : Prop where
  isNumeral : IsNumeral cs
  ne_nil : cs ≠ []
  leading : cs = ['0'] ∨ cs.head? ≠ some '0'

theorem isWhole_digits (n : Nat) : IsWhole (digits n) where
  isNumeral := isNumeral_digits n
  ne_nil := Nat.toDigits_ne_nil
  leading := by
    by_cases h : n = 0
    · exact Or.inl (by rw [h]; rfl)
    · exact Or.inr (head?_digits h)

/-- A numeral with the digits before its point, those after it, and its exponent.  Without digits
after it there is no point. -/
structure Numeral where
  whole : List Char
  places : List Char
  power : Option Int

namespace Numeral

def placeChars : List Char → List Char
  | [] => []
  | ds => '.' :: ds

theorem placeChars_of_ne_nil {ds : List Char} (h : ds ≠ []) : placeChars ds = '.' :: ds := by
  cases ds with
  | nil => exact absurd rfl h
  | cons d rest => rfl

/-- The values of the digits after a point, if there is a point. -/
def placeValues? : List Char → Option (List Nat)
  | [] => none
  | ds => some (digitValues ds)

theorem getD_placeValues? (ds : List Char) : (placeValues? ds).getD [] = digitValues ds := by
  cases ds <;> rfl

def powerChars (l : FloatLayout) : Option Int → List Char
  | none => []
  | some e => 'e' :: l.exponentText e

def chars (l : FloatLayout) (n : Numeral) : List Char :=
  n.whole ++ (placeChars n.places ++ powerChars l n.power)

structure IsValid (n : Numeral) : Prop where
  isWhole : IsWhole n.whole
  isNumeral_places : IsNumeral n.places
  marked : n.places ≠ [] ∨ n.power.isSome = true

/-- The quantity that a numeral writes. -/
def quantity (negative : Bool) (n : Numeral) : Exact :=
  ⟨negative, numeralValue (n.whole ++ n.places), n.power.getD 0 - n.places.length⟩

theorem IsValid.chars_eq_cons {n : Numeral} (h : n.IsValid) (l : FloatLayout) :
    ∃ d cs, d.isDigit = true ∧ n.chars l = d :: cs := by
  obtain ⟨d, ds, hwhole⟩ := List.exists_cons_of_ne_nil h.isWhole.ne_nil
  refine ⟨d, ds ++ (placeChars n.places ++ powerChars l n.power),
    h.isWhole.isNumeral d (hwhole ▸ List.mem_cons_self), ?_⟩
  rw [chars, hwhole, List.cons_append]

end Numeral

end Criteria.Number

namespace Criteria.Json

open Number

/-- What follows a number does not continue it. -/
def Ends (cs : List Char) : Prop :=
  ∀ c ∈ cs.head?, c.isDigit = false ∧ c ≠ '.' ∧ c ≠ 'e' ∧ c ≠ 'E'

theorem Ends.halts {cs : List Char} (h : Ends cs) : Halts cs := fun c hc ↦ (h c hc).1

theorem Ends.head?_ne {cs : List Char} (h : Ends cs) {c : Char}
    (hc : c = '.' ∨ c = 'e' ∨ c = 'E') : cs.head? ≠ some c := by
  intro hhead
  obtain ⟨-, hpoint, he, hE⟩ := h c hhead
  exact hc.elim hpoint fun hmark ↦ hmark.elim he hE

theorem spanWhole_append {whole rest : List Char} (h : IsWhole whole) (hrest : Halts rest) :
    spanWhole (whole ++ rest) = (digitValues whole, rest) := by
  rcases h.leading with rfl | hlead
  · rfl
  · obtain ⟨c, others, rfl⟩ := List.exists_cons_of_ne_nil h.ne_nil
    have hc : c ≠ '0' := fun heq ↦ hlead (congrArg some heq)
    rw [← spanDigits_append h.isNumeral hrest, List.cons_append, spanWhole]
    exact fun _ heq ↦ hc (List.cons.inj heq).1

theorem halts_placeChars_append (places : List Char) {rest : List Char} (h : Halts rest) :
    Halts (Numeral.placeChars places ++ rest) := by
  cases places with
  | nil => exact h
  | cons d ds => exact fun c hc ↦ Option.some.inj hc ▸ rfl

theorem halts_powerChars_append {l : FloatLayout} {power : Option Int} {rest : List Char}
    (h : Halts rest) : Halts (Numeral.powerChars l power ++ rest) := by
  cases power with
  | none => exact h
  | some e => exact fun c hc ↦ Option.some.inj hc ▸ rfl

theorem spanFraction_append {places rest : List Char} (h : IsNumeral places) (hrest : Halts rest)
    (hpoint : rest.head? ≠ some '.') :
    spanFraction (Numeral.placeChars places ++ rest) =
      (Numeral.placeValues? places, rest) := by
  cases places with
  | nil =>
      cases rest with
      | nil => rfl
      | cons c others =>
          have hc : c ≠ '.' := fun heq ↦ hpoint (congrArg some heq)
          simp only [Numeral.placeChars, List.nil_append]
          rw [spanFraction]
          · rfl
          · exact fun _ heq ↦ hc (List.cons.inj heq).1
  | cons d ds =>
      obtain ⟨value, values, hvalues⟩ := h.digitValues_eq_cons (List.cons_ne_nil d ds)
      have hspan := spanDigits_append h hrest
      rw [hvalues, List.cons_append] at hspan
      simp only [Numeral.placeChars, List.cons_append, spanFraction, hspan, Numeral.placeValues?,
        hvalues]

theorem isNumeral_filled (l : FloatLayout) (n : Nat) :
    IsNumeral (List.replicate (l.exponentWidth - (digits n).length) '0' ++ digits n) :=
  (isNumeral_zeros _).append (isNumeral_digits n)

theorem spanExponent_append (l : FloatLayout) (power : Option Int) {rest : List Char}
    (hrest : Ends rest) : spanExponent (Numeral.powerChars l power ++ rest) = (power, rest) := by
  cases power with
  | none =>
      cases rest with
      | nil => rfl
      | cons c others =>
          have hc : ¬(c = 'e' ∨ c = 'E') := fun h ↦ hrest.head?_ne (Or.inr h) rfl
          simp only [Numeral.powerChars, List.nil_append, spanExponent, if_neg hc]
  | some e =>
      have hnumeral := isNumeral_filled l e.natAbs
      have hvalue : numeralValue (List.replicate (l.exponentWidth - (digits e.natAbs).length) '0' ++
          digits e.natAbs) = e.natAbs := by
        rw [numeralValue_zeros_append, numeralValue_digits]
      obtain ⟨d, ds, hvalues⟩ := hnumeral.digitValues_eq_cons
        (List.append_ne_nil_of_right_ne_nil _ Nat.toDigits_ne_nil)
      have hspan := spanDigits_append hnumeral hrest.halts
      rw [hvalues] at hspan
      have hdigits : (Text.ofDigits 10 (d :: ds) : Int) = e.natAbs := by
        rw [← hvalues, hnumeral.ofDigits_digitValues, hvalue]
      have hsign : ∀ cs, Exact.readSign ((if e < 0 then '-' else '+') :: cs) =
          (decide (e < 0), cs) := by
        intro cs
        by_cases h : e < 0
        · rw [if_pos h, decide_eq_true h, Exact.readSign]
        · rw [if_neg h, decide_eq_false h, Exact.readSign]
      simp only [Numeral.powerChars, FloatLayout.exponentText, List.cons_append, spanExponent,
        true_or, if_true, hsign, hspan, hdigits, Prod.mk.injEq, Option.some.injEq, and_true,
        decide_eq_true_eq]
      split <;> omega

/-- A numeral with a point or an exponent is read as the binary number nearest to its quantity. -/
theorem readNumber?_chars {l : FloatLayout} {n : Numeral} {rest : List Char} (h : n.IsValid)
    (hrest : Ends rest) (negative : Bool) :
    readNumber? negative (n.chars l ++ rest) =
      some (.float (Double.ofExact (n.quantity negative)), rest) := by
  obtain ⟨whole, places, power⟩ := n
  obtain ⟨d, ds, hvalues⟩ := h.isWhole.isNumeral.digitValues_eq_cons h.isWhole.ne_nil
  have hpower : Halts (Numeral.powerChars l power ++ rest) := halts_powerChars_append hrest.halts
  have hwhole := spanWhole_append h.isWhole
    (halts_placeChars_append places hpower)
  have hpoint : (Numeral.powerChars l power ++ rest).head? ≠ some '.' := by
    cases power with
    | none => exact hrest.head?_ne (Or.inl rfl)
    | some e => exact fun heq ↦ absurd (Option.some.inj heq) (by decide)
  have hplaces := spanFraction_append h.isNumeral_places hpower hpoint
  have hexponent := spanExponent_append l power hrest
  have hchars : Numeral.chars l ⟨whole, places, power⟩ ++ rest =
      whole ++ (Numeral.placeChars places ++ (Numeral.powerChars l power ++ rest)) := by
    rw [Numeral.chars, List.append_assoc, List.append_assoc]
  have hmarked : ((Numeral.placeValues? places).isNone && power.isNone) = false := by
    rcases h.marked with hplaces | hpower
    · obtain ⟨d, ds, rfl⟩ := List.exists_cons_of_ne_nil hplaces
      rfl
    · rw [Option.isNone_eq_false_iff.mpr hpower, Bool.and_false]
  rw [hvalues] at hwhole
  simp only [readNumber?, hchars, hwhole, hplaces, hexponent, hmarked, Numeral.getD_placeValues?]
  rw [if_neg Bool.false_ne_true, ← hvalues, ← digitValues_append,
    (h.isWhole.isNumeral.append h.isNumeral_places).ofDigits_digitValues,
    h.isNumeral_places.length_digitValues]
  rfl

/-- A numeral without a point or an exponent is read as a whole number. -/
theorem readNumber?_whole {ds rest : List Char} (h : IsWhole ds)
    (hlimit : ds.length ≤ Text.digitLimit) (hrest : Ends rest) (negative : Bool) :
    readNumber? negative (ds ++ rest) =
      some (.int (if negative then -(numeralValue ds : Int) else numeralValue ds), rest) := by
  obtain ⟨d, values, hvalues⟩ := h.isNumeral.digitValues_eq_cons h.ne_nil
  have hwhole := spanWhole_append h hrest.halts
  have hfraction := spanFraction_append (isNumeral_zeros 0) hrest.halts
    (hrest.head?_ne (Or.inl rfl))
  have hexponent := spanExponent_append Double.layout none hrest
  rw [List.replicate_zero, Numeral.placeChars, List.nil_append, Numeral.placeValues?] at hfraction
  rw [Numeral.powerChars, List.nil_append] at hexponent
  have hlength : ¬Text.digitLimit < (d :: values).length := by
    rw [← hvalues, h.isNumeral.length_digitValues]
    exact Nat.not_lt.mpr hlimit
  have hvalue : Text.ofDigits 10 (d :: values) = numeralValue ds := by
    rw [← hvalues, h.isNumeral.ofDigits_digitValues]
  rw [hvalues] at hwhole
  simp only [readNumber?, hwhole, hfraction, hexponent, hvalue, if_neg hlength,
    Option.isNone_none, Bool.and_self, if_true]

/-- What begins with a digit, or with a minus sign and a digit, is read as a number. -/
theorem readScalar?_eq {d : Char} (h : d.isDigit = true) (negative : Bool) (cs : List Char) :
    readScalar? ((if negative then ['-'] else []) ++ d :: cs) = readNumber? negative (d :: cs) := by
  cases negative with
  | true =>
      simp only [if_true, List.cons_append, List.nil_append]
      rw [readScalar?]
      rintro rest ⟨⟩
      exact absurd h (by decide)
  | false =>
      simp only [Bool.false_eq_true, if_false, List.nil_append]
      rw [readScalar?]
      all_goals
        rintro rest ⟨⟩
        exact absurd h (by decide)

end Criteria.Json
