import Criteria.Binding
import Criteria.Value.Entries
import Criteria.Fault

/-!
# Abstract operators

An abstract operator is what a declarative finder consumes: a comparison with a value, membership,
a range, a pattern, a null check, the negation of another operator, or a raw text template with
its own parameters for what has no native form.  A raw operator remembers the token it came from,
which takes no part in equality.
-/

namespace Criteria

inductive FindOperator where
  | equal (value : Value)
  | isIn (values : List Value)
  | moreThan (value : Value)
  | moreThanOrEqual (value : Value)
  | lessThan (value : Value)
  | lessThanOrEqual (value : Value)
  | between (low high : Value)
  | like (pattern : Value)
  | ilike (pattern : Value)
  | isNull
  | not (child : FindOperator)
  | raw (value : Value) (template : String) (parameters : Parameters) (origin : Option Operator)
  deriving Inhabited

namespace FindOperator

def kind : FindOperator → FindKind
  | equal _ => .equal
  | isIn _ => .isIn
  | moreThan _ => .moreThan
  | moreThanOrEqual _ => .moreThanOrEqual
  | lessThan _ => .lessThan
  | lessThanOrEqual _ => .lessThanOrEqual
  | between _ _ => .between
  | like _ => .like
  | ilike _ => .ilike
  | isNull => .isNull
  | not _ => .not
  | raw _ _ _ _ => .raw

/-- Membership in the items of a value: those of a list, tuple or set, the characters of a text,
the numbers of bytes or the keys of a dictionary. -/
def memberOf : Value → Except Fault FindOperator
  | .list items | .tuple items | .set items => .ok (isIn items)
  | .text s => .ok (isIn (s.toList.map fun c ↦ .text (toString c)))
  | .bytes bs => .ok (isIn (bs.map fun b ↦ .int b.toNat))
  | .dict entries => .ok (isIn (entries.map (·.1)))
  | v => .error (.notIterable v)

def child : FindOperator → Except Fault FindOperator
  | not op => .ok op
  | op => .error (.noChild op.kind)

/-- A raw template filled in with the alias of a column. -/
def render (fieldAlias : String) : FindOperator → Except Fault String
  | raw _ template _ _ =>
    match Template.fill template fieldAlias with
    | .ok text => .ok text
    | .error fault => .error (.template fault)
  | op => .error (.noTemplate op.kind)

/-- The value that an operator carries, for operators that wrap no other. -/
def operand : FindOperator → Value
  | equal v | moreThan v | moreThanOrEqual v | lessThan v | lessThanOrEqual v | like v
  | ilike v | raw v _ _ _ => v
  | isIn values => .list values
  | between low high => .tuple [low, high]
  | isNull | not _ => .null

def toValue : FindOperator → Value
  | not op => .dict [(.text "type", .text (FindKind.not).name), (.text "value", op.toValue)]
  | isNull => .dict [(.text "type", .text (FindKind.isNull).name)]
  | raw _ template parameters _ =>
    .dict [(.text "type", .text (FindKind.raw).name), (.text "template", .text template),
      (.text "parameters", parameters.toValue)]
  | op => .dict [(.text "type", .text op.kind.name), (.text "value", op.operand)]

def asOperand : FindOperator → Value
  | not op => .operator .not op.asOperand none [] none
  | raw v template parameters origin => .operator .raw v (some template) parameters origin
  | op => .operator op.kind op.operand none [] none

/-- Equality of operators, which does not look at where a raw operator came from. -/
def same (a b : FindOperator) : Except Fault Bool :=
  Fault.ofVerdict (a.asOperand.equality b.asOperand)

end FindOperator

end Criteria
