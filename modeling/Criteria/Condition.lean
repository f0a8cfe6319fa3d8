import Criteria.Fault

/-!
# Conditions

A condition arrives as an arbitrary value.  Classifying it decides once which of four shapes it
has: an object with one operator, an array that lists members, a sentinel, or a literal.
-/

namespace Criteria

namespace Value

/-- Whether a value is a number.  Truth values are not numbers here. -/
def isNumber : Value → Bool
  | int _ | float _ | decimal _ => true
  | _ => false

/-- Whether a value is a date, with or without a time of day. -/
def isDate : Value → Bool
  | date _ | datetime _ => true
  | _ => false

def isText : Value → Bool
  | text _ => true
  | _ => false

def isBool : Value → Bool
  | bool _ => true
  | _ => false

/-- A scalar is a text, a number or a date. -/
def isScalar (v : Value) : Bool := v.isText || v.isNumber || v.isDate

/-- A literal is a scalar or a truth value. -/
def isLiteral (v : Value) : Bool := v.isScalar || v.isBool

def items? : Value → Option (List Value)
  | list items | tuple items => some items
  | _ => none

def isScalarArray (v : Value) : Bool := (v.items?.map (·.all isScalar)).getD false

end Value

/-- A condition by its shape. -/
inductive Condition where
  | operator (token operand : Value)
  | array (items : List Value)
  | sentinel (s : Sentinel)
  | literal (value : Value)

namespace Condition

/-- The shape of a list or a tuple, which must hold scalars alone. -/
def ofItems (condition : Value) (items : List Value) : Except ConditionFault Condition :=
  if items.all Value.isScalar then .ok (.array items)
  else .error (.conditionShape condition
    (some "Array condition must contain only strings, numbers or dates"))

/-- The shape of a condition. -/
def classify : Value → Except ConditionFault Condition
  | .null => .error .missingCondition
  | .dict [(token, operand)] =>
    if operand.isNull then .error (.missingOperand token) else .ok (.operator token operand)
  | .dict entries => .error (.ambiguousShape (entries.map (·.1)))
  | .list items => ofItems (.list items) items
  | .tuple items => ofItems (.tuple items) items
  | .text s =>
    match Sentinel.ofToken? s with
    | some mark => .ok (.sentinel mark)
    | none => .ok (.literal (.text s))
  | v => if v.isLiteral then .ok (.literal v) else .error (.conditionShape v none)

end Condition

end Criteria
