import Criteria.Number.Exact

/-!
# Binary floating point

The finite numbers of the 64-bit binary format are the products `± mantissa · 2 ^ exponent` with a
mantissa below `2 ^ 53` and an exponent between `-1074` and `971`.  A number is kept with its
mantissa at least `2 ^ 52`, or with the exponent `-1074`, so each number has one form.  Reading
a decimal quantity rounds to the nearest number, a tie to the even mantissa, and what lies beyond
the largest number becomes an infinity.  What is not a number is an object with a tag of its own: it
equals nothing, and only the tag says that two of them are the same object.
-/

namespace Criteria.Number

/-- A number of the 64-bit binary format. -/
inductive Double where
  | nan (tag : Nat)
  | infinite (negative : Bool)
  | finite (negative : Bool) (mantissa : Nat) (exponent : Int)
  deriving DecidableEq

namespace Double

/-- Mantissas are below this bound. -/
def mantissaBound : Nat := Nat.pow 2 53

/-- The exponent of the smallest numbers. -/
def leastExponent : Int := -1074

/-- The exponent of the largest numbers. -/
def greatestExponent : Int := 971

/-- A quotient rounded to a whole number, a tie to the even one. -/
def roundQuotient (num den : Nat) : Nat :=
  let q := num / den
  let r := num % den
  if 2 * r < den then q else if den < 2 * r then q + 1 else q + q % 2

/-- The quotient `num / den / 2 ^ exponent`, rounded. -/
def mantissaAt (num den : Nat) (exponent : Int) : Nat :=
  roundQuotient (num * Nat.pow 2 (-exponent).toNat) (den * Nat.pow 2 exponent.toNat)

/-- The number nearest to `num / den`, which is not zero. -/
def ofRatio (negative : Bool) (num den : Nat) : Double :=
  let estimate : Int := max (num.log2 - den.log2 - 53) leastExponent
  let floor := (num * Nat.pow 2 (-estimate).toNat) / (den * Nat.pow 2 estimate.toNat)
  let exponent := if mantissaBound ≤ floor then estimate + 1 else estimate
  let mantissa := mantissaAt num den exponent
  let (mantissa, exponent) :=
    if mantissa = mantissaBound then (Nat.pow 2 52, exponent + 1) else (mantissa, exponent)
  if greatestExponent < exponent then infinite negative
  else finite negative mantissa exponent

/-- The number nearest to a decimal quantity.  A quantity of more than 310 places is beyond all
numbers, and one that begins after 330 places is nearer to zero than to any of them. -/
def ofExact (x : Exact) : Double :=
  if x.coefficient = 0 ∨ x.place < -330 then finite x.negative 0 leastExponent
  else if 310 < x.place then infinite x.negative
  else
    ofRatio x.negative (x.coefficient * Nat.pow 10 x.exponent.toNat)
      (Nat.pow 10 (-x.exponent).toNat)

/-- The exact quantity of a finite number. -/
def toExact (negative : Bool) (mantissa : Nat) (exponent : Int) : Exact :=
  if 0 ≤ exponent then ⟨negative, mantissa * Nat.pow 2 exponent.toNat, 0⟩
  else ⟨negative, mantissa * Nat.pow 5 (-exponent).toNat, exponent⟩

/-- The quantity that a number stands for. -/
def quantity : Double → Quantity
  | nan _ => .nan
  | infinite negative => .infinite negative
  | finite negative mantissa exponent => .finite (toExact negative mantissa exponent)

/-- The number that a text writes: a numeral, `nan`, `inf` or `-inf`.  What is not a number gets the
tag. -/
def ofText? (tag : Nat) (s : String) : Option Double :=
  if s = "nan" then some (nan tag)
  else if s = "inf" then some (infinite false)
  else if s = "-inf" then some (infinite true)
  else (Exact.read? s.toList).map ofExact

end Double

end Criteria.Number
