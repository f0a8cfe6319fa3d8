import Criteria.FindOperator
import Criteria.Json.Reader
import Criteria.Like
import Criteria.Memory.Containment
import Criteria.Regex.Reader
import Criteria.Regex.Search
import Criteria.Value.Order

/-!
# Evaluating abstract operators

An abstract operator is evaluated on the value of a field.  A missing value satisfies no operator
but the null check, and no negation but that of a null check.  Raw operators are told apart by the
token they came from, and look at the operand they carry, not at their text.  Patterns are matched
against the text of a value, and a value without a text is a fault.
-/

namespace Criteria.Memory

/-- The operators that can be evaluated: native ones by kind, raw ones by token. -/
structure Registry where
  kinds : List FindKind
  origins : List Operator

namespace Registry

/-- The native operators and the operators for regular expressions and documents. -/
def full : Registry where
  kinds :=
    [.equal, .moreThan, .moreThanOrEqual, .lessThan, .lessThanOrEqual, .isIn, .between, .like,
     .ilike, .isNull]
  origins :=
    [.regex, .notRegex, .regexi, .notRegexi, .jsonContains, .jsonContained, .jsonEquals,
     .jsonHasKey]

/-- The registry with only those operators that have one of the given names. -/
def keeping (names : List String) (r : Registry) : Registry where
  kinds := r.kinds.filter fun k ↦ names.contains k.name
  origins := r.origins.filter fun o ↦ names.contains o.token

end Registry

/-- A test of a value that a missing value never passes. -/
def unlessNull (field : Value) (test : Except Fault Bool) : Except Fault Bool :=
  if field.isNull then .ok false else test

theorem unlessNull_of_isNull {field : Value} (h : field.isNull = true)
    (test : Except Fault Bool) : unlessNull field test = .ok false :=
  if_pos h

theorem unlessNull_of_isNull_eq_false {field : Value} (h : field.isNull = false)
    (test : Except Fault Bool) : unlessNull field test = test :=
  if_neg (by simp [h])

/-- Whether a value lies in a range; the upper end is looked at only when the lower one holds. -/
def inRange (low high field : Value) : Except Fault Bool :=
  match low.compareBy .le field with
  | .ok true => field.compareBy .le high
  | result => result

def patternFault : Regex.PatternFault → Fault
  | .malformed => .invalidPattern
  | .countTooLarge => .countTooLarge
  | .tooManyDigits count => .tooManyDigits count
  | .clashingFlags => .clashingFlags

/-- A test of the texts of a pattern and a value. -/
def onTexts (pattern field : Value) (test : String → String → Except Fault Bool) :
    Except Fault Bool :=
  match pattern.text?, field.text? with
  | some s, some t => test s t
  | _, _ => .error .unwrittenNumber

/-- Whether a text holds a match of a regular expression. -/
def searchedIn (ignoreCase negated : Bool) (pattern text : String) : Except Fault Bool :=
  match Regex.read (if ignoreCase then [.ignoreCase] else []) pattern with
  | .ok p => .ok (p.foundIn text != negated)
  | .error fault => .error (patternFault fault)

/-- Whether the text of a value holds a match of a regular expression. -/
def searched (ignoreCase negated : Bool) (pattern field : Value) : Except Fault Bool :=
  onTexts pattern field (searchedIn ignoreCase negated)

/-- Whether the text of a value matches a pattern as a whole. -/
def liked (ignoreCase : Bool) (pattern field : Value) : Except Fault Bool :=
  onTexts pattern field fun s t ↦
    .ok (if ignoreCase then Like.matchesLetters s t else Like.matchesExactly s t)

/-- Whether a document has the text of a value as a key.  Only an object or a list is asked. -/
def holdsKey (document key : Value) : Except Fault Bool :=
  if isContainer document then
    match key.text? with
    | some s => .ok (hasKey document s)
    | none => .error .unwrittenNumber
  else .ok false

/-- A raw operator evaluated on the value of a field, if its origin can be. -/
def evaluateRaw (origin : Operator) (operand field : Value) : Except Fault Bool :=
  match origin with
  | .regex => unlessNull field (searched false false operand field)
  | .notRegex => unlessNull field (searched false true operand field)
  | .regexi => unlessNull field (searched true false operand field)
  | .notRegexi => unlessNull field (searched true true operand field)
  | .jsonContains => unlessNull field (Fault.ofVerdict (contains (Json.decoded field) operand))
  | .jsonContained => unlessNull field (Fault.ofVerdict (contains operand (Json.decoded field)))
  | .jsonEquals => unlessNull field (Fault.ofVerdict ((Json.decoded field).equality operand))
  -- A missing value has no keys, so nothing has to keep it out here.
  | .jsonHasKey => holdsKey (Json.decoded field) operand
  | _ => .error (.unsupportedOrigin (some origin))

/-- A native operator evaluated on the value of a field. -/
def evaluateNative (op : FindOperator) (field : Value) : Except Fault Bool :=
  match op with
  | .equal value => unlessNull field (Fault.ofVerdict (field.equality value))
  | .isIn values => unlessNull field (Fault.ofVerdict (field.membership values))
  | .moreThan value => unlessNull field (field.compareBy .gt value)
  | .moreThanOrEqual value => unlessNull field (field.compareBy .ge value)
  | .lessThan value => unlessNull field (field.compareBy .lt value)
  | .lessThanOrEqual value => unlessNull field (field.compareBy .le value)
  | .between low high => unlessNull field (inRange low high field)
  | .like pattern => unlessNull field (liked false pattern field)
  | .ilike pattern => unlessNull field (liked true pattern field)
  | .isNull => .ok field.isNull
  | op => .error (.unsupportedKind .memory op.kind)

def isNullCheck : FindOperator → Bool
  | .isNull => true
  | _ => false

/-- An operator evaluated on the value of a field. -/
def evaluate (r : Registry) : FindOperator → Value → Except Fault Bool
  | .not child, field =>
    -- Otherwise a missing value would pass the negation of every test that it fails.
    if field.isNull && !isNullCheck child then .ok false
    else (evaluate r child field).map (!·)
  | .raw operand _ _ origin, field =>
    match origin with
    | some o =>
      if r.origins.contains o then evaluateRaw o operand field
      else .error (.unsupportedOrigin origin)
    | none => .error (.unsupportedOrigin none)
  | op, field =>
    if r.kinds.contains op.kind then evaluateNative op field
    else .error (.unsupportedKind .memory op.kind)

end Criteria.Memory
