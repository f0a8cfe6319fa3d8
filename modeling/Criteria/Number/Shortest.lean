import Criteria.Number.Double

/-!
# The shortest text of a floating point number

A number is written with the fewest decimal digits that read back as the same number, and of the
numerals with so few digits the one nearest to it.  The reals that round to a number form an
interval, which holds its ends exactly when the mantissa is even.  For each count of digits the
two neighbours of the number on the decimal grid are tried; the first grid with a neighbour inside
the interval gives the digits.  How the digits are laid out is a record of its own.
-/

namespace Criteria.Number

/-- The reals that round to one number: all four bounds are multiples of `1 / den`. -/
structure RoundingInterval where
  low : Nat
  value : Nat
  high : Nat
  den : Nat
  closed : Bool

namespace RoundingInterval

/-- The interval of a positive number.  Below a power of two the numbers are twice as dense. -/
def ofDouble (mantissa : Nat) (exponent : Int) : RoundingInterval :=
  let unit := Nat.pow 2 exponent.toNat
  let value := 4 * mantissa * unit
  let below := if mantissa = Nat.pow 2 52 ∧ Double.leastExponent < exponent then unit else 2 * unit
  ⟨value - below, value, value + 2 * unit, 4 * Nat.pow 2 (-exponent).toNat, mantissa % 2 = 0⟩

/-- Whether `n · 10 ^ exponent` lies in the interval. -/
def contains (i : RoundingInterval) (n : Nat) (exponent : Int) : Bool :=
  let point := n * i.den * Nat.pow 10 exponent.toNat
  let scale := Nat.pow 10 (-exponent).toNat
  if i.closed then i.low * scale ≤ point && point ≤ i.high * scale
  else i.low * scale < point && point < i.high * scale

/-- The power of ten not above the value, as its exponent. -/
def leadingExponent (i : RoundingInterval) : Int :=
  let guess : Int := (digits i.value).length - (digits i.den).length
  if i.den * Nat.pow 10 guess.toNat ≤ i.value * Nat.pow 10 (-guess).toNat then guess else guess - 1

/-- The multiple of `10 ^ exponent` inside the interval that is nearest to the value; of two
equally near the even one. -/
def nearest? (i : RoundingInterval) (exponent : Int) : Option Nat :=
  let num := i.value * Nat.pow 10 (-exponent).toNat
  let den := i.den * Nat.pow 10 exponent.toNat
  let down := num / den
  let rest := num % den
  match i.contains down exponent, i.contains (down + 1) exponent with
  | true, true =>
    some (if 2 * rest < den then down else if den < 2 * rest then down + 1
      else down + down % 2)
  | true, false => some down
  | false, true => some (down + 1)
  | false, false => none

/-- The digits on the first grid, from `count` digits on, that has a point in the interval. -/
def shortestFrom (i : RoundingInterval) (lead : Int) : (tries count : Nat) → Nat × Int
  | 0, count => ((i.nearest? (lead - count)).getD 0, lead - count)
  | tries + 1, count =>
    match i.nearest? (lead - count) with
    | some n => (n, lead - count)
    | none => shortestFrom i lead tries (count + 1)

/-- The shortest decimal in the interval, as a coefficient and an exponent.  Seventeen digits
always suffice. -/
def shortest (i : RoundingInterval) : Nat × Int := i.shortestFrom i.leadingExponent 17 0

end RoundingInterval

/-- How the digits of a number are laid out. -/
structure FloatLayout where
  /-- The least decimal exponent that is written positionally. -/
  positionalFrom : Int
  /-- The first decimal exponent that is not. -/
  positionalBelow : Int
  /-- The least number of digits of an exponent. -/
  exponentWidth : Nat

namespace FloatLayout

/-- An exponent with its sign, filled with zeros to the layout's width. -/
def exponentText (l : FloatLayout) (e : Int) : List Char :=
  let ds := digits e.natAbs
  (if e < 0 then '-' else '+') :: List.replicate (l.exponentWidth - ds.length) '0' ++ ds

/-- The positional text of digits whose point stands after `point` of them. -/
def positional (ds : List Char) (point : Int) : List Char :=
  if point ≤ 0 then '0' :: '.' :: (List.replicate (-point).toNat '0' ++ ds)
  else
    let whole := ds.take point.toNat ++ List.replicate (point.toNat - ds.length) '0'
    let fraction := ds.drop point.toNat
    whole ++ '.' :: (if fraction.isEmpty then ['0'] else fraction)

/-- The text of digits whose point stands after `point` of them. -/
def text (l : FloatLayout) (ds : List Char) (point : Int) : List Char :=
  if l.positionalFrom ≤ point - 1 ∧ point - 1 < l.positionalBelow then positional ds point
  else
    let tail := 'e' :: l.exponentText (point - 1)
    match ds with
    | [] => tail
    | [d] => d :: tail
    | d :: rest => d :: '.' :: (rest ++ tail)

end FloatLayout

namespace Double

/-- Numbers from `0.0001` to below `10 ^ 16` are written positionally, with at least one digit
after the point; the others with an exponent of at least two digits. -/
def layout : FloatLayout := ⟨-4, 16, 2⟩

/-- The shortest text of a number. -/
def text : Double → String
  | nan _ => "nan"
  | infinite negative => if negative then "-inf" else "inf"
  | finite negative mantissa exponent =>
    let unsigned :=
      if mantissa = 0 then ['0', '.', '0']
      else
        let (n, e) := (RoundingInterval.ofDouble mantissa exponent).shortest
        let ds := digits n
        layout.text (ds.take (ds.reverse.dropWhile (· == '0')).length) (ds.length + e)
    String.ofList (if negative then '-' :: unsigned else unsigned)

end Double

end Criteria.Number
