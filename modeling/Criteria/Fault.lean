import Criteria.Operator
import Criteria.Similarity
import Criteria.Template
import Criteria.Value.Display
import Criteria.Value.Verdict

/-!
# Faults

What can go wrong, by cause.  A `ConditionFault` says that a condition, a filter tree or a set of
clauses is not well formed; it has a stable code, a message and a report of its details.  A
`Fault` is such a fault or one of the failures of plain values: an order between values that have
none, a name that nothing is bound to, a template or a pattern that cannot be read.
-/

namespace Criteria

/-- How an operator is asked for: by the token of a condition object, or because a bare condition
implies it. -/
inductive OperatorRequest where
  | token (v : Value)
  | implied (o : Operator)
  deriving Inhabited

namespace OperatorRequest

/-- An operator as messages name it. -/
def nameInMessages (o : Operator) : String := "ConditionOperator." ++ o.label

def text : OperatorRequest → String
  | token v => v.toText
  | implied o => nameInMessages o

def hasText : OperatorRequest → Bool
  | token v => v.hasText
  | implied _ => true

/-- The text of the token that is asked for, if the token is a text. -/
def tokenText? : OperatorRequest → Option String
  | token (.text s) => some s
  | token _ => none
  | implied o => some o.token

end OperatorRequest

/-- A condition, filter tree or clause that is not well formed.  A fault with a place keeps its
cause, and apart from it the fault that it was raised from, if there is one. -/
inductive ConditionFault where
  | general (message : Option String)
  | unsupportedTarget (target : Value)
  | invalidAlias (fieldAlias : Value)
  | missingCondition
  | ambiguousShape (keys : List Value)
  | missingOperand (operator : Value)
  | unknownOperator (request : OperatorRequest) (known : List String)
  | operandShape (operator expected : String) (operand : Value)
  | conditionShape (condition : Value) (reason : Option String)
  | nameBound (name : String)
  | located (field : Value) (path : Option String) (cause : ConditionFault)
      (chained : Option ConditionFault)
  deriving Inhabited

namespace ConditionFault

/-- A text that is there and not empty. -/
def given? : Option String → Option String
  | some s => if s.isEmpty then none else some s
  | none => none

/-- The stable code of a fault. -/
def code : ConditionFault → String
  | general _ => "CONDITION_ERROR"
  | unsupportedTarget _ => "UNSUPPORTED_CONDITION_FOR_VALUE"
  | invalidAlias _ => "ALIAS_MUST_BE_A_NON_EMPTY_STRING"
  | missingCondition => "CONDITION_CANNOT_BE_UNDEFINED_OR_NULL"
  | ambiguousShape _ => "CONDITION_OBJECT_MUST_HAVE_EXACTLY_ONE_KEY"
  | missingOperand _ => "CONDITION_VALUE_CANNOT_BE_UNDEFINED_OR_NULL"
  | unknownOperator _ _ => "INVALID_CONDITION_OPERATOR"
  | operandShape _ _ _ => "INVALID_OPERAND_SHAPE"
  | conditionShape _ _ => "INVALID_CONDITION"
  | nameBound _ => "PARAMETER_NAME_COLLISION"
  | located _ _ _ _ => "QUERY_CONDITION_PARSING_ERROR"

/-- The known operators closest to an unknown one.  Only a text is close to anything. -/
def suggestions (known : List String) (request : OperatorRequest) : List String :=
  match request.tokenText? with
  | some s => Similarity.closest s known
  | none => []

/-- Where an entry stands in its tree: a path that is given, or else the field alone. -/
def position (field : Value) (path : Option String) : Value :=
  ((given? path).map Value.text).getD field

def message : ConditionFault → String
  | general text => (given? text).getD (general text).code
  | unsupportedTarget target =>
    "Unsupported condition target " ++ target.inspect ++ "; expected 'qb' or 'find'"
  | invalidAlias fieldAlias => "Field alias must be a non-empty string, got " ++ fieldAlias.inspect
  | missingCondition => "Condition cannot be None"
  | ambiguousShape keys =>
    "Condition object must have exactly one key, got " ++ toString keys.length ++ ": "
      ++ (Value.list keys).inspect
  | missingOperand operator => "Value for operator " ++ operator.inspect ++ " cannot be None"
  | unknownOperator request known =>
    let close := suggestions known request
    (unknownOperator request known).code ++ " " ++ request.text ++
      (if close.isEmpty then "" else
        ". Did you mean: " ++ String.intercalate ", " close ++ "?")
  | operandShape operator expected operand =>
    "Operator '" ++ operator ++ "' must have " ++ expected ++ ", got " ++ operand.typeName
  | conditionShape condition reason =>
    (given? reason).getD
      ("Invalid condition: must be an operator object, array, string, number, boolean or date, got "
        ++ condition.typeName)
  | nameBound name => "Parameter " ++ Text.quoted name ++ " is already bound in this clause"
  | located field path cause _ =>
    "Error parsing condition for field \"" ++ (position field path).toText ++ "\": "
      ++ cause.message

/-- Whether the message can be written: every value that it shows has a text. -/
def hasMessage : ConditionFault → Bool
  | unsupportedTarget target => target.hasText
  | invalidAlias fieldAlias => fieldAlias.hasText
  | ambiguousShape keys => (Value.list keys).hasText
  | missingOperand operator => operator.hasText
  | unknownOperator request _ => request.hasText
  | located field path _ _ => (position field path).hasText
  | _ => true

def textList (texts : List String) : Value := .list (texts.map .text)

/-- The details of a fault, with its code and message in front. -/
def report : ConditionFault → List (String × Value)
  | ambiguousShape keys =>
    [("error", .text (ambiguousShape keys).code),
     ("message", .text (ambiguousShape keys).message),
     ("keys", textList (keys.map Value.toText))]
  | unknownOperator request known =>
    [("error", .text (unknownOperator request known).code),
     ("message", .text (unknownOperator request known).message),
     ("operator", .text request.text),
     ("suggestions", textList (suggestions known request)),
     ("valid_operators", textList (known.mergeSort (decide <| · ≤ ·)))]
  | operandShape operator expected operand =>
    [("error", .text (operandShape operator expected operand).code),
     ("message", .text (operandShape operator expected operand).message),
     ("operator", .text operator),
     ("expected", .text expected)]
  | located field path cause chained =>
    [("error", .text (located field path cause chained).code),
     ("message", .text (located field path cause chained).message),
     ("field", field),
     ("path", position field path),
     ("cause", .dict (cause.report.map fun e ↦ (.text e.1, e.2)))]
  | fault => [("error", .text fault.code), ("message", .text fault.message)]

end ConditionFault

/-- The back ends that interpret abstract operators. -/
inductive Backend where
  | memory | sql
  deriving DecidableEq

def Backend.text : Backend → String
  | memory => "in-memory evaluation"
  | sql => "SQLAlchemy"

/-- Anything that can go wrong. -/
inductive Fault where
  | condition (fault : ConditionFault)
  | notSearchable (container : Value)
  | textInBytes
  | notIterable (container : Value)
  | noAttribute (owner : Value) (name : String)
  | notCallable (v : Value)
  | invalidJoin (join : Value)
  | invalidOperator (token : Value)
  | notReplayable
  | unsupportedKind (backend : Backend) (kind : FindKind)
  | unsupportedOrigin (origin : Option Operator)
  | noChild (kind : FindKind)
  | noTemplate (kind : FindKind)
  | notOrdered (comparison : Comparison) (left right : Value)
  | dateAgainstTime
  | offsetMissing
  | undefinedDecimal
  | template (fault : Template.Fault)
  | invalidPattern
  | countTooLarge
  | clashingFlags
  | unknownBind (name : String)
  | notSubscriptable (container : Value)
  | mutableKey (part : Value)
  | signallingKey
  | tooManyDigits (count : Nat)
  | unwrittenNumber
  | columnsNotOrdered (comparison : Comparison) (right : Value)
  | noTest (kind : FindKind)
  | reservedName (owner name : String)
  | exclusiveName (name : String)
  | spreadName (name : String)
  | constantOperand
  | unknownKey (key : Value)
  | noPlace (index : Value)
  deriving Inhabited

namespace Fault

/-- A fault of a condition as it is raised.  Its message is written at once, and when that fails the
fault is not one of the condition any more. -/
def raised (fault : ConditionFault) : Fault :=
  if fault.hasMessage then condition fault else unwrittenNumber

/-- What goes wrong when a value that is no dictionary is asked for its entries.  A record may have
an attribute where a dictionary has the means to list them. -/
def noEntries (v : Value) : Fault :=
  match v.attribute? "items" with
  | some held => notCallable held
  | none => noAttribute v "items"

/-- A verdict as a truth value.  To signal is a fault. -/
def ofVerdict : Verdict → Except Fault Bool
  | .yes => .ok true
  | .no => .ok false
  | .signals => .error undefinedDecimal

/-- A kind of abstract operator as a back end names it. -/
def kindText (kind : FindKind) : String := "FindOperatorType." ++ kind.label

/-- An operator as a back end names it. -/
def originText (origin : Option Operator) : String :=
  (origin.map OperatorRequest.nameInMessages).getD "None"

/-- The test of a column for a kind of operator. -/
def testName : FindKind → String
  | .isIn => "in_"
  | .isNull => "is_"
  | kind => kind.name

def message : Fault → String
  | condition fault => fault.message
  | notSearchable container =>
    "argument of type '" ++ container.qualifiedTypeName ++ "' is not iterable"
  | textInBytes => "a bytes-like object is required, not 'str'"
  | notIterable container => "'" ++ container.qualifiedTypeName ++ "' object is not iterable"
  | noAttribute owner name =>
    "'" ++ owner.qualifiedTypeName ++ "' object has no attribute '" ++ name ++ "'"
  | notCallable v => "'" ++ v.qualifiedTypeName ++ "' object is not callable"
  | invalidJoin join => join.inspect ++ " is not a valid JoinOperator"
  | invalidOperator token => token.inspect ++ " is not a valid ConditionOperator"
  | notReplayable => "'SQLAlchemyClauseSink' object has no attribute 'replay'"
  | unsupportedKind backend kind =>
    "Unsupported operator for " ++ backend.text ++ ": " ++ kindText kind
  | unsupportedOrigin origin =>
    "Unsupported raw operator for " ++ Backend.memory.text ++ ": " ++ originText origin
  | noChild kind => kind.name ++ " operator has no child"
  | noTemplate kind => kind.name ++ " operator has no raw template"
  | notOrdered comparison left right =>
    "'" ++ comparison.symbol ++ "' not supported between instances of '"
      ++ left.qualifiedTypeName ++ "' and '" ++ right.qualifiedTypeName ++ "'"
  | dateAgainstTime => "can't compare datetime.datetime to datetime.date"
  | offsetMissing => "can't compare offset-naive and offset-aware datetimes"
  | undefinedDecimal => "[<class 'decimal.InvalidOperation'>]"
  | template fault => fault.message
  | invalidPattern => "invalid regular expression"
  | countTooLarge => "the repetition number is too large"
  | clashingFlags => "ASCII and UNICODE flags are incompatible"
  | unknownBind name =>
    "This text() construct doesn't define a bound parameter named " ++ Text.quoted name
  | reservedName owner name => owner ++ "() got multiple values for argument '" ++ name ++ "'"
  | exclusiveName name =>
    "Bind parameter '" ++ name ++ "' conflicts with unique bind parameter of the same name"
  | spreadName name =>
    "Can't reuse bound parameter name '" ++ name ++ "' in both 'expanding' (e.g. within an IN "
      ++ "expression) and non-expanding contexts.  If this parameter is to receive a list/array "
      ++ "value, set 'expanding=True' on it for expressions that aren't IN, otherwise use a "
      ++ "different parameter name."
  | constantOperand =>
    "Only '=', '!=', 'is_()', 'is_not()', 'is_distinct_from()', 'is_not_distinct_from()' "
      ++ "operators can be used with None/True/False"
  | notSubscriptable container =>
    "'" ++ container.qualifiedTypeName ++ "' object is not subscriptable"
  | columnsNotOrdered comparison right =>
    "'" ++ comparison.symbol ++ "' not supported between instances of 'ReadOnlyColumnCollection' "
      ++ "and '" ++ right.qualifiedTypeName ++ "'"
  | noTest kind => testName kind
  | tooManyDigits count =>
    "Exceeds the limit (4300 digits) for integer string conversion: value has " ++ toString count
      ++ " digits; use sys.set_int_max_str_digits() to increase the limit"
  | unwrittenNumber =>
    "Exceeds the limit (4300 digits) for integer string conversion; "
      ++ "use sys.set_int_max_str_digits() to increase the limit"
  | signallingKey => "Cannot hash a signaling NaN value"
  | mutableKey part => "unhashable type: '" ++ part.qualifiedTypeName ++ "'"
  | unknownKey key => key.inspect
  | noPlace index => index.toText

end Fault

end Criteria
