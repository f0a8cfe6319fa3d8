import Criteria.Fault
import Criteria.Value.Equality

/-!
# Order of values

Numbers are ordered by the quantities they stand for; what is not a number is below, above and
beside nothing, and is a fault as soon as a decimal takes part.  Texts and bytes are ordered
lexicographically, dates and times by time.  Lists with lists and tuples with tuples compare the
first pair of items that do not match, so a fault names these, and else their lengths.  Of two sets
one is below the other when it is contained in it.  All other pairs have no order, and a fault
between two records names the dictionaries of their attributes.
-/

namespace Criteria.Value

def isDecimal : Value → Bool
  | decimal _ => true
  | _ => false

/-- The relation between two numbers. -/
def compareQuantities (c : Comparison) (exactOnly : Bool) (x y : Number.Quantity) :
    Except Fault Bool :=
  match x.compare? y with
  | some o => .ok (c.holds o)
  | none => if exactOnly then .error .undefinedDecimal else .ok false

/-- The attributes of a record as a dictionary. -/
def attributeTable (fields : List (String × Value)) : Value :=
  dict (fields.map fun f ↦ (text f.1, f.2))

/-- The lexicographic order of two sequences of numbers. -/
def compareCodes : List Nat → List Nat → Ordering
  | [], [] => .eq
  | [], _ :: _ => .lt
  | _ :: _, [] => .gt
  | a :: as, b :: bs => (compare a b).then (compareCodes as bs)

/-- The relation between two sets: inclusion, and proper inclusion when they must differ. -/
def compareSets (c : Comparison) (xs ys : List Value) : Bool :=
  match c with
  | .le => coveredBy xs ys
  | .ge => coveredBy ys xs
  | .lt => coveredBy xs ys && xs.length < ys.length
  | .gt => coveredBy ys xs && ys.length < xs.length

mutual

/-- The relation between two values, if they have an order. -/
def compareBy (c : Comparison) : Value → Value → Except Fault Bool
  | .text s, .text t =>
    .ok (c.holds (compareCodes (s.toList.map Char.toNat) (t.toList.map Char.toNat)))
  | .bytes s, .bytes t =>
    .ok (c.holds (compareCodes (s.map UInt8.toNat) (t.map UInt8.toNat)))
  | .date d, .date e => .ok (c.holds (d.compare e))
  | .datetime t, .datetime u =>
    match t.compare? u with
    | some o => .ok (c.holds o)
    | none => .error .offsetMissing
  | .date _, .datetime _ => .error .dateAgainstTime
  | .datetime _, .date _ => .error .dateAgainstTime
  | .list xs, .list ys => compareItems c xs ys
  | .tuple xs, .tuple ys => compareItems c xs ys
  | .set xs, .set ys => .ok (compareSets c xs ys)
  | .record f, .record g => .error (.notOrdered c (attributeTable f) (attributeTable g))
  | v, w =>
    match v.quantity?, w.quantity? with
    | some x, some y => compareQuantities c (v.isDecimal || w.isDecimal) x y
    | _, _ => .error (.notOrdered c v w)
termination_by structural v => v

/-- The relation between two sequences. -/
def compareItems (c : Comparison) : List Value → List Value → Except Fault Bool
  | [], [] => .ok (c.holds .eq)
  | [], _ :: _ => .ok (c.holds .lt)
  | _ :: _, [] => .ok (c.holds .gt)
  | x :: xs, y :: ys =>
    match matching x y with
    | .yes => compareItems c xs ys
    | .no => compareBy c x y
    | .signals => .error .undefinedDecimal
termination_by structural xs => xs

end

end Criteria.Value
