import Criteria.Number.Exact
import Criteria.Text.Blank

/-!
# Decimal numbers

A decimal number keeps its coefficient and its exponent, so `1.50` and `1.5` are written
differently and yet are equal.  It is written positionally when its exponent is not positive and
its leading digit stands no more than six places after the point, and otherwise with an `E`.  What
is not a number may carry a whole number as a payload, it may be signalling, and it has a tag that
says which object it is.
-/

namespace Criteria.Number

inductive Decimal where
  | nan (negative signalling : Bool) (payload tag : Nat)
  | infinite (negative : Bool)
  | finite (x : Exact)
  deriving DecidableEq

namespace Decimal

def quantity : Decimal → Quantity
  | nan _ _ _ _ => .nan
  | infinite negative => .infinite negative
  | finite x => .finite x

def isSignalling : Decimal → Bool
  | nan _ signalling _ _ => signalling
  | _ => false

/-- The unsigned text of a finite decimal number. -/
def magnitudeText (coefficient : Nat) (exponent : Int) : List Char :=
  let ds := digits coefficient
  let place : Int := ds.length + exponent
  if exponent ≤ 0 ∧ -6 < place then
    if exponent = 0 then ds
    else if place ≤ 0 then '0' :: '.' :: (List.replicate (-place).toNat '0' ++ ds)
    else ds.take place.toNat ++ '.' :: ds.drop place.toNat
  else
    let shift := place - 1
    let tail := 'E' :: (if shift < 0 then '-' else '+') :: digits shift.natAbs
    match ds with
    | [] => tail
    | [d] => d :: tail
    | d :: rest => d :: '.' :: (rest ++ tail)

/-- The unsigned text of what is not a number.  The payload zero is left out. -/
def nanText (signalling : Bool) (payload : Nat) : List Char :=
  (if signalling then ['s'] else []) ++ ['N', 'a', 'N'] ++
    (if payload = 0 then [] else digits payload)

def text (d : Decimal) : String :=
  let (negative, unsigned) := match d with
    | nan negative signalling payload _ => (negative, nanText signalling payload)
    | infinite negative => (negative, "Infinity".toList)
    | finite x => (x.negative, magnitudeText x.coefficient x.exponent)
  String.ofList (if negative then '-' :: unsigned else unsigned)

/-- The characters of a numeral that count: neither the blanks around it nor its underscores do, and
a digit of any script stands for the digit of its value. -/
def numeral (s : String) : List Char :=
  ((Text.trim s.toList).filter (· ≠ '_')).map fun c ↦
    ((Text.digitValue? c).map Text.hexChar).getD c

/-- A payload, which is written by digits alone. -/
def payload? (cs : List Char) : Option Nat :=
  match Exact.spanDigits cs with
  | (ds, []) => some (Text.ofDigits 10 ds)
  | _ => none

/-- The decimal number that a text writes.  What is not a number gets the tag. -/
def ofText? (tag : Nat) (s : String) : Option Decimal :=
  let cs := numeral s
  let (negative, rest) := Exact.readSign cs
  match rest.map Char.toLower with
  | ['i', 'n', 'f'] | ['i', 'n', 'f', 'i', 'n', 'i', 't', 'y'] => some (infinite negative)
  | 'n' :: 'a' :: 'n' :: rest => (payload? rest).map (nan negative false · tag)
  | 's' :: 'n' :: 'a' :: 'n' :: rest => (payload? rest).map (nan negative true · tag)
  | _ => (Exact.read? cs).map finite

end Decimal

end Criteria.Number
