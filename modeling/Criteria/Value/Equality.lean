import Criteria.Value.Basic
import Criteria.Value.Verdict

/-!
# Equality of values

Numbers of all kinds are equal when they stand for the same quantity, so what is not a number
equals nothing, and a comparison of a number with a signalling one signals.  Lists equal lists and
tuples equal tuples, item by item; lists of different lengths are unequal at once, and tuples after
their items.  Dictionaries are equal when they have the same keys with equal values, in any order.
Their entries are taken in the order of the first dictionary.  Records are compared like the
dictionaries of their attributes.  An object without attributes is equal to itself alone, and for
operators it does not matter what they came from.

A value that is looked for among others, or compared as a part of a collection, is found to be the
same object before it is compared.  This tells on what is not a number: it equals nothing, and yet
a collection holds it.
-/

namespace Criteria.Value

def isSignalling : Value → Bool
  | decimal d => d.isSignalling
  | _ => false

/-- Whether two values stand for the same number. -/
def sameQuantity (a b : Value) : Verdict :=
  match a.quantity?, b.quantity? with
  | some x, some y =>
    if a.isSignalling || b.isSignalling then .signals else .ofBool (x.equal y)
  | _, _ => .no

/-- The verdict on two collections of named values, of which the second has `size`, by the verdicts
on the values of the first one. -/
def entriesVerdict (size : Nat) (found : List Verdict) : Verdict :=
  .all (.ofBool (found.length == size) :: found)

/-- Whether two values are one object that does not equal itself.  All else equals itself, so for it
this is not asked. -/
def isSame : Value → Value → Bool
  | float (.nan m), float (.nan n) => m == n
  | decimal (.nan _ _ _ m), decimal (.nan _ _ _ n) => m == n
  | _, _ => false

/-- The verdict on two values of which one is looked for, by the verdict on their equality. -/
def unlessSame (v w : Value) (equality : Verdict) : Verdict :=
  if v.isSame w then .yes else equality

mutual

/-- The verdict on the equality of two values. -/
def equality : Value → Value → Verdict
  | .null, other => .ofBool other.isNull
  | .bool b, other => sameQuantity (.bool b) other
  | .int n, other => sameQuantity (int n) other
  | .float x, other => sameQuantity (float x) other
  | .decimal d, other => sameQuantity (decimal d) other
  | .text s, text t => .ofBool (s == t)
  | .bytes s, bytes t => .ofBool (s == t)
  | .date d, date e => .ofBool (d == e)
  | .datetime t, datetime u => .ofBool (t.equal u)
  | .object m, .object n => .ofBool (m == n)
  -- Lists compare their lengths first, and tuples last: until then an item may still signal.
  | .list xs, list ys =>
    .all (.ofBool (xs.length == ys.length) :: itemVerdicts xs ys)
  | .tuple xs, tuple ys =>
    .all (itemVerdicts xs ys ++ [.ofBool (xs.length == ys.length)])
  | .set xs, .set ys => .ofBool (xs.length == ys.length && coveredBy xs ys)
  | .dict xs, dict ys => entriesVerdict ys.length (entryVerdicts xs ys)
  | .record xs, .record ys => entriesVerdict ys.length (fieldVerdicts xs ys)
  | .operator k v s xs _, .operator l w t ys _ =>
    .all [.ofBool (k == l), v.unlessSame w (v.equality w), .ofBool (s == t),
      entriesVerdict ys.length (fieldVerdicts xs ys)]
  | _, _ => .no
termination_by structural v => v

/-- The verdicts on the items of two sequences, as far as both of them go. -/
def itemVerdicts : List Value → List Value → List Verdict
  | x :: xs, y :: ys => x.unlessSame y (x.equality y) :: itemVerdicts xs ys
  | _, _ => []
termination_by structural v => v

/-- Whether every item of a collection is found in another. -/
def coveredBy : List Value → List Value → Bool
  | [], _ => true
  | x :: xs, ys => (ys.any fun y ↦ (x.unlessSame y (x.equality y)).isYes) && coveredBy xs ys
termination_by structural v => v

/-- The verdict on every entry: whether a dictionary has its key with an equal value. -/
def entryVerdicts : List (Value × Value) → List (Value × Value) → List Verdict
  | [], _ => []
  | (k, v) :: rest, ys =>
    (match ys.find? fun e ↦ (k.unlessSame e.1 (k.equality e.1)).isYes with
      | some e => v.unlessSame e.2 (v.equality e.2)
      | none => .no) :: entryVerdicts rest ys
termination_by structural v => v

/-- The verdict on every named value: whether some others hold an equal one of that name. -/
def fieldVerdicts : List (String × Value) → List (String × Value) → List Verdict
  | [], _ => []
  | (k, v) :: rest, ys =>
    (match ys.find? fun e ↦ e.1 == k with
      | some e => v.unlessSame e.2 (v.equality e.2)
      | none => .no) :: fieldVerdicts rest ys
termination_by structural v => v

end

/-- The verdict on two values of which one is looked for. -/
def matching (v w : Value) : Verdict := v.unlessSame w (v.equality w)

theorem quantity?_of_isSame {v w : Value} (h : v.isSame w = true) : v.quantity? = some .nan := by
  rw [isSame.eq_def] at h
  split at h <;> first | rfl | cases h

/-- Whether something else is the same object matters for what is not a number alone. -/
theorem matching_eq_equality {v : Value} (h : v.quantity? ≠ some .nan) (w : Value) :
    v.matching w = v.equality w :=
  if_neg fun hsame ↦ h (quantity?_of_isSame hsame)

/-- Whether two values match as keys.  What signals does not. -/
def equal (v w : Value) : Bool := (v.matching w).isYes

/-- Whether a collection holds a value.  The item comes first in each comparison. -/
def membership (v : Value) (items : List Value) : Verdict :=
  .any (items.map fun item ↦ item.matching v)

end Criteria.Value
