import Criteria.Condition
import Criteria.Json.Writer

/-!
# Criteria

A criterion is what an operator and a fitting operand say together.  Reading one is all the
checking there is: the operand has the shape that the operator expects exactly when a criterion
comes of it, and a criterion holds nothing but what its renderings need.
-/

namespace Criteria

/-- Where a pattern puts the text that it looks for. -/
inductive Placement where
  | anywhere | atStart | atEnd
  deriving DecidableEq

namespace Placement

/-- The pattern for a text, which keeps the wildcards that it has. -/
def pattern (p : Placement) (s : String) : String :=
  match p with
  | anywhere => "%" ++ s ++ "%"
  | atStart => s ++ "%"
  | atEnd => "%" ++ s

end Placement

/-- How a field that holds a document is compared with another document. -/
inductive DocumentRelation where
  | contains | contained | equals
  deriving DecidableEq

namespace DocumentRelation

def symbol : DocumentRelation → String
  | contains => "@>"
  | contained => "<@"
  | equals => "="

end DocumentRelation

/-- A condition on one field with nothing left to check. -/
inductive Criterion where
  | membership (negated : Bool) (items : List Value)
  | order (comparison : Comparison) (value : Value)
  | equality (negated : Bool) (value : Value)
  | range (negated : Bool) (low high : Value)
  | pattern (placement : Placement) (ignoreCase negated : Bool) (text : String)
  | regex (ignoreCase negated : Bool) (text : String)
  | document (relation : DocumentRelation) (operand : Value) (json : String)
  | hasKey (key : String)

namespace Criterion

def scalarItems? (v : Value) : Option (List Value) :=
  match v.items? with
  | some items => if items.all Value.isScalar then some items else none
  | none => none

/-- The ends of a range: an array of two scalars. -/
def ends? (v : Value) : Option (Value × Value) :=
  match v.items? with
  | some [low, high] => if low.isScalar && high.isScalar then some (low, high) else none
  | _ => none

def text? : Value → Option String
  | .text s => some s
  | _ => none

/-- An operand with the JSON document that stands for it. -/
def document? (v : Value) : Option (Value × String) := (Json.write? v).map (v, ·)

/-- A value that passes a test. -/
def satisfying? (test : Value → Bool) (v : Value) : Option Value := if test v then some v else none

end Criterion

namespace Operator

/-- The criterion that an operator makes of an operand of the right shape. -/
def criterion? (o : Operator) (operand : Value) : Option Criterion :=
  match o with
  | isIn => (Criterion.scalarItems? operand).map (.membership false)
  | notIn => (Criterion.scalarItems? operand).map (.membership true)
  | gte => (Criterion.satisfying? Value.isScalar operand).map (.order .ge)
  | lte => (Criterion.satisfying? Value.isScalar operand).map (.order .le)
  | gt => (Criterion.satisfying? Value.isScalar operand).map (.order .gt)
  | lt => (Criterion.satisfying? Value.isScalar operand).map (.order .lt)
  | equalTo => (Criterion.satisfying? Value.isLiteral operand).map (.equality false)
  | notEqualTo => (Criterion.satisfying? Value.isLiteral operand).map (.equality true)
  | between => (Criterion.ends? operand).map fun (low, high) ↦ .range false low high
  | notBetween => (Criterion.ends? operand).map fun (low, high) ↦ .range true low high
  | contains => (Criterion.text? operand).map (.pattern .anywhere false false)
  | notContains => (Criterion.text? operand).map (.pattern .anywhere false true)
  | iContains => (Criterion.text? operand).map (.pattern .anywhere true false)
  | notIContains => (Criterion.text? operand).map (.pattern .anywhere true true)
  | startsWith => (Criterion.text? operand).map (.pattern .atStart false false)
  | notStartsWith => (Criterion.text? operand).map (.pattern .atStart false true)
  | endsWith => (Criterion.text? operand).map (.pattern .atEnd false false)
  | notEndsWith => (Criterion.text? operand).map (.pattern .atEnd false true)
  | regex => (Criterion.text? operand).map (.regex false false)
  | notRegex => (Criterion.text? operand).map (.regex false true)
  | regexi => (Criterion.text? operand).map (.regex true false)
  | notRegexi => (Criterion.text? operand).map (.regex true true)
  | jsonContains => (Criterion.document? operand).map fun (v, json) ↦ .document .contains v json
  | jsonContained => (Criterion.document? operand).map fun (v, json) ↦ .document .contained v json
  | jsonEquals => (Criterion.document? operand).map fun (v, json) ↦ .document .equals v json
  | jsonHasKey => (Criterion.text? operand).map .hasKey

/-- The shape of operand that an operator expects, in words. -/
def expectation : Operator → String
  | isIn | notIn => "an array of strings, numbers or dates"
  | gte | lte | gt | lt => "a number, string or date value"
  | equalTo | notEqualTo => "a string, number, boolean or date value"
  | between | notBetween => "an array with two string, number or date values"
  | contains | notContains | iContains | notIContains | startsWith | notStartsWith | endsWith
  | notEndsWith | regex | notRegex | regexi | notRegexi => "a string value"
  | jsonContains | jsonContained | jsonEquals => "a JSON-serializable value"
  | jsonHasKey => "a string key"

/-- The criterion of an operator and an operand, or what is wrong with the operand. -/
def criterion (o : Operator) (operand : Value) : Except ConditionFault Criterion :=
  match o.criterion? operand with
  | some c => .ok c
  | none => .error (.operandShape o.token o.expectation operand)

end Operator

end Criteria
