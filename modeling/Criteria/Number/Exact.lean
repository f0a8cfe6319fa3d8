import Criteria.Text.Digit

/-!
# Exact decimal quantities

Every finite number of the library, whole, binary or decimal, is exactly a signed coefficient
times a power of ten.  Numbers of different kinds are compared through this form, so no comparison
rounds.  The order looks at the position of the leading digit first: two quantities are brought to
a common exponent only when their leading digits stand at the same place, and then the exponents
differ by no more than the coefficients are long.
-/

namespace Criteria.Number

/-- The digits of a natural number in base ten. -/
def digits (n : Nat) : List Char := Nat.toDigits 10 n

/-- Whether a whole number is written: it must not have too many digits. -/
def hasNumeral (n : Int) : Bool := (digits n.natAbs).length ≤ Text.digitLimit

theorem hasNumeral_iff {n : Int} :
    hasNumeral n = true ↔ (digits n.natAbs).length ≤ Text.digitLimit :=
  decide_eq_true_iff

/-- The quantity `± coefficient · 10 ^ exponent`.  Zero keeps its sign and its exponent. -/
structure Exact where
  negative : Bool
  coefficient : Nat
  exponent : Int
  deriving DecidableEq

namespace Exact

def ofInt (n : Int) : Exact := ⟨decide (n < 0), n.natAbs, 0⟩

/-- The place of the leading digit: the magnitude is below ten to this power, and not below a
tenth of it. -/
def place (x : Exact) : Int := (digits x.coefficient).length + x.exponent

/-- The coefficient at a smaller exponent. -/
def scaledTo (x : Exact) (exponent : Int) : Nat :=
  x.coefficient * Nat.pow 10 (x.exponent - exponent).toNat

/-- The order of two magnitudes. -/
def compareMagnitude (x y : Exact) : Ordering :=
  if x.coefficient = 0 then
    if y.coefficient = 0 then .eq else .lt
  else if y.coefficient = 0 then .gt
  else
    -- Places that differ decide without scaling, however far apart the exponents are.
    (compare x.place y.place).then
      (let low := min x.exponent y.exponent
       compare (x.scaledTo low) (y.scaledTo low))

/-- The order of two quantities.  The two zeros are equal. -/
def compare (x y : Exact) : Ordering :=
  if x.coefficient = 0 ∧ y.coefficient = 0 then .eq
  else match x.negative, y.negative with
    | false, false => compareMagnitude x y
    | true, true => compareMagnitude y x
    | true, false => .lt
    | false, true => .gt

/-- The digits at the front of a text and what follows them. -/
def spanDigits (cs : List Char) : List Nat × List Char :=
  ((cs.takeWhile fun c ↦ (Text.asciiDigit? c).isSome).filterMap Text.asciiDigit?,
    cs.dropWhile fun c ↦ (Text.asciiDigit? c).isSome)

/-- A sign at the front of a text and what follows it. -/
def readSign : List Char → Bool × List Char
  | '-' :: rest => (true, rest)
  | '+' :: rest => (false, rest)
  | rest => (false, rest)

/-- The exponent that ends a numeral: nothing, or an `e` of either case with a whole number. -/
def readExponent? : List Char → Option Int
  | [] => some 0
  | c :: rest =>
    if c = 'e' ∨ c = 'E' then
      let (negative, rest) := readSign rest
      match spanDigits rest with
      | ([], _) => none
      | (ds, []) =>
        let n : Int := Text.ofDigits 10 ds
        some (if negative then -n else n)
      | (_, _ :: _) => none
    else none

/-- The quantity that a numeral writes: a sign, digits with at most one point among them, and an
exponent.  At least one digit is needed before the exponent. -/
def read? (cs : List Char) : Option Exact :=
  let (negative, rest) := readSign cs
  let (whole, rest) := spanDigits rest
  let (fraction, rest) := match rest with
    | '.' :: rest => spanDigits rest
    | rest => ([], rest)
  if whole.isEmpty && fraction.isEmpty then none
  else (readExponent? rest).map fun e ↦
    ⟨negative, Text.ofDigits 10 (whole ++ fraction), e - fraction.length⟩

end Exact

/-- A number of any kind: an exact quantity, an infinity, or not a number. -/
inductive Quantity where
  | nan
  | infinite (negative : Bool)
  | finite (x : Exact)
  deriving DecidableEq

namespace Quantity

/-- The order of two numbers; there is none when one of them is not a number. -/
def compare? : Quantity → Quantity → Option Ordering
  | nan, _ => none
  | _, nan => none
  | infinite a, infinite b => some (if a = b then .eq else if a then .lt else .gt)
  | infinite a, finite _ => some (if a then .lt else .gt)
  | finite _, infinite b => some (if b then .gt else .lt)
  | finite x, finite y => some (x.compare y)

/-- Equality by value.  What is not a number equals nothing. -/
def equal (x y : Quantity) : Bool := x.compare? y == some .eq

end Quantity

end Criteria.Number
