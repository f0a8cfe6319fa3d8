import Criteria.FindOperator
import Criteria.Sql.BoundText
import Criteria.Sql.Column
import Criteria.Sql.Expression

/-!
# Tests of columns

An abstract operator becomes a test of a column, which is negated by the sign that says the
opposite.  A raw operator becomes a text, and its negation a text in `NOT (…)`.  Two negations
cancel out.  A truth value that is negated is a parameter.
-/

namespace Criteria.Sql

/-- What a column is tested for. -/
inductive Check where
  | equal (value : Value)
  | isConstant (value : Bool)
  | isNull
  | order (comparison : Comparison) (value : Value)
  | isIn (values : List Value)
  | between (low high : Value)
  | like (pattern : Value)
  | ilike (pattern : Value)

/-- The test of a column. -/
structure Test where
  column : Column
  negated : Bool
  check : Check

/-- What expressions are made of: texts, tests of columns and the negations of truth values. -/
inductive Atom where
  | text (t : BoundText)
  | test (t : Test)
  | negation (value : Bool)

namespace Check

/-- Whether a value is a constant that only equality takes. -/
def isFixed : Value → Bool
  | .null | .bool _ => true
  | _ => false

/-- A check whose operand is no constant. -/
def withOperand (v : Value) (check : Check) : Except Fault Check :=
  if isFixed v then .error .constantOperand else .ok check

/-- The check of an operator that wraps no other and is not raw. -/
def ofOperator : FindOperator → Except Fault Check
  | .equal .null => .ok isNull
  | .equal (.bool b) => .ok (isConstant b)
  | .equal v => .ok (equal v)
  | .isIn vs => .ok (isIn vs)
  | .moreThan v => withOperand v (order .gt v)
  | .moreThanOrEqual v => withOperand v (order .ge v)
  | .lessThan v => withOperand v (order .lt v)
  | .lessThanOrEqual v => withOperand v (order .le v)
  | .between low high => .ok (between low high)
  | .like v => withOperand v (like v)
  | .ilike v => withOperand v (ilike v)
  | .isNull => .ok isNull
  | op => .error (.unsupportedKind .sql op.kind)

end Check

namespace Test

def negate (t : Test) : Test := { t with negated := !t.negated }

/-- The parameter for a value of the test's column. -/
def parameter (t : Test) (value : Value) : Piece :=
  .unnamed t.column.parameterBase true ⟨value, false⟩

def equalitySign (t : Test) : String := if t.negated then " != " else " = "

/-- A keyword of a test, with `NOT` in front when it is negated. -/
def keyword (t : Test) (word : String) : String := if t.negated then "NOT " ++ word else word

/-- The relation that a test asks for. -/
def relation (t : Test) (c : Comparison) : Comparison := if t.negated then c.complement else c

def membershipPieces (t : Test) (values : List Value) : List Piece :=
  [.text (t.column.text ++ " " ++ t.keyword "IN" ++ " "),
    .unnamed t.column.parameterBase true ⟨.list values, true⟩]

def pieces (t : Test) : List Piece :=
  match t.check with
  | .equal v => [.text (t.column.text ++ t.equalitySign), t.parameter v]
  | .isConstant b => [.text (t.column.text ++ t.equalitySign ++ toString b)]
  | .isNull => [.text (t.column.text ++ (if t.negated then " IS NOT NULL" else " IS NULL"))]
  | .order c v => [.text (t.column.text ++ " " ++ (t.relation c).symbol ++ " "), t.parameter v]
  | .isIn vs =>
    if t.negated then Expression.bracketed (t.membershipPieces vs) else t.membershipPieces vs
  | .between low high =>
    [.text (t.column.text ++ " " ++ t.keyword "BETWEEN" ++ " "), t.parameter low, .text " AND ",
      t.parameter high]
  | .like v => [.text (t.column.text ++ " " ++ t.keyword "LIKE" ++ " "), t.parameter v]
  | .ilike v =>
    [.text ("lower(" ++ t.column.text ++ ") " ++ t.keyword "LIKE" ++ " lower("), t.parameter v,
      .text ")"]

end Test

namespace Atom

def pieces : Atom → List Piece
  | text t => t.pieces
  | test t => t.pieces
  | negation value => [.text "NOT ", .unnamed unnamedBase true ⟨.bool value, false⟩]

/-- An atom with the opposite outcome.  Only a test is negated after it has become an atom. -/
def negate : Atom → Atom
  | test t => test t.negate
  | a => a

/-- The kinds of operator that have a test. -/
def allKinds : List FindKind :=
  [.equal, .isIn, .moreThan, .moreThanOrEqual, .lessThan, .lessThanOrEqual, .between, .like,
   .ilike, .isNull]

/-- What raw templates call a column: an alias that is not empty, or else the column itself. -/
def templateAlias (column : Column) (fieldAlias : Option String) : String :=
  match fieldAlias with
  | some a => if a.isEmpty then column.plainText else a
  | none => column.plainText

/-- A raw operator as a text, with the name that its template is filled in with. -/
def ofRaw (name : String) (negated : Bool) (op : FindOperator) (parameters : Parameters) :
    Except Fault Atom :=
  match op.render name with
  | .error fault => .error fault
  | .ok rendered =>
    match BoundText.ofTemplate (if negated then "NOT (" ++ rendered ++ ")" else rendered)
        parameters with
    | .error fault => .error fault
    | .ok t => .ok (text t)

/-- An abstract operator on a column, with the kinds of operator that there are tests for. -/
def ofOperator (kinds : List FindKind) (column : Column) (fieldAlias : Option String) :
    FindOperator → Except Fault Atom
  | .not (.not op) => ofOperator kinds column fieldAlias op
  | .not (.raw value template parameters origin) =>
    ofRaw (templateAlias column fieldAlias) true (.raw value template parameters origin) parameters
  | .not op =>
    match ofOperator kinds column fieldAlias op with
    | .error fault => .error fault
    | .ok a => .ok a.negate
  | .raw value template parameters origin =>
    ofRaw (templateAlias column fieldAlias) false (.raw value template parameters origin) parameters
  | op =>
    if kinds.contains op.kind then
      match Check.ofOperator op with
      | .error fault => .error fault
      | .ok check => .ok (test ⟨column, false, check⟩)
    else .error (.unsupportedKind .sql op.kind)

end Atom

namespace Expression

/-- The statement that an expression over texts and tests makes. -/
def statement (e : Expression Atom) : Except Fault Statement :=
  Statement.ofPieces (e.pieces Atom.pieces)

end Expression

end Criteria.Sql
