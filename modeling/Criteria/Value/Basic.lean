import Criteria.Number.Double
import Criteria.Number.Decimal
import Criteria.Calendar.DateTime
import Criteria.Operator

/-!
# Values

The values that conditions and candidates are made of: what a data format such as JSON holds,
together with tuples, sets, exact decimals, dates, times, bytes, objects without any attribute,
records of named attributes and abstract operators.  A dictionary keeps its entries in the order in
which they were added.  Which object an object without attributes is, its tag says.
-/

namespace Criteria

/-- A dynamic value. -/
inductive Value where
  | null
  | bool (b : Bool)
  | int (n : Int)
  | float (x : Number.Double)
  | decimal (d : Number.Decimal)
  | text (s : String)
  | bytes (bs : List UInt8)
  | date (d : Calendar.Date)
  | datetime (t : Calendar.DateTime)
  | list (items : List Value)
  | tuple (items : List Value)
  | set (items : List Value)
  | dict (entries : List (Value × Value))
  | record (fields : List (String × Value))
  | object (tag : Nat)
  | operator (kind : FindKind) (operand : Value) (template : Option String)
      (parameters : List (String × Value)) (origin : Option Operator)
  deriving Inhabited

namespace Value

def typeName : Value → String
  | null => "NoneType"
  | bool _ => "bool"
  | int _ => "int"
  | float _ => "float"
  | decimal _ => "Decimal"
  | text _ => "str"
  | bytes _ => "bytes"
  | date _ => "date"
  | datetime _ => "datetime"
  | list _ => "list"
  | tuple _ => "tuple"
  | set _ => "set"
  | dict _ => "dict"
  | record _ => "SimpleNamespace"
  | object _ => "object"
  | operator _ _ _ _ _ => "FindOperator"

/-- The name of a value's type together with the family it belongs to. -/
def qualifiedTypeName : Value → String
  | decimal _ => "decimal.Decimal"
  | date _ => "datetime.date"
  | datetime _ => "datetime.datetime"
  | record _ => "types.SimpleNamespace"
  | v => v.typeName

def isNull : Value → Bool
  | null => true
  | _ => false

theorem isNull_iff {v : Value} : v.isNull = true ↔ v = null := by
  cases v <;> simp [isNull]

/-- The parts of a whole number as attributes. -/
def wholeParts (n : Int) : List (String × Value) :=
  [("real", int n), ("imag", int 0), ("numerator", int n), ("denominator", int 1)]

/-- The parts of a date as attributes. -/
def dateParts (d : Calendar.Date) : List (String × Value) :=
  [("year", int d.year), ("month", int d.month), ("day", int d.day)]

/-- The attributes of a value that are values: those that a record was given, and the parts of
numbers, dates and times. -/
def attributes : Value → List (String × Value)
  | record fields => fields
  | bool b => wholeParts b.toNat
  | int n => wholeParts n
  | float x => [("real", float x), ("imag", float (.finite false 0 Number.Double.leastExponent))]
  | decimal d => [("real", decimal d), ("imag", decimal (.finite ⟨false, 0, 0⟩))]
  | date d => dateParts d
  | datetime t =>
    dateParts t.date ++ [("hour", int t.hour), ("minute", int t.minute), ("second", int t.second),
      ("microsecond", int t.micro)]
  | _ => []

/-- The value of an attribute. -/
def attribute? (v : Value) (name : String) : Option Value :=
  (v.attributes.find? fun f ↦ f.1 == name).map (·.2)

/-- The number that a value stands for; the two truth values count as zero and one. -/
def quantity? : Value → Option Number.Quantity
  | bool b => some (.finite (.ofInt b.toNat))
  | int n => some (.finite (.ofInt n))
  | float x => some x.quantity
  | decimal d => some d.quantity
  | _ => none

end Value

end Criteria
