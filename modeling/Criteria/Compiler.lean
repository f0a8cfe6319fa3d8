import Criteria.FindOperator
import Criteria.Fragment
import Criteria.Registry

/-!
# Compiling conditions

A condition is compiled into a query fragment or into an abstract operator.  Both encodings share
one admission: the condition is classified, its operator is looked up and its operand is read, and
the first step that fails is the fault that is reported.  Only a condition that has been admitted
draws an identifier, and a null check draws none.
-/

namespace Criteria

/-- A condition that may be rendered. -/
inductive Admitted where
  | nullCheck (negated : Bool)
  | criterion (operator : Operator) (criterion : Criterion)

/-- The criterion of an operator that has to be looked up. -/
def operatorAdmission (registry : Registry) (request : OperatorRequest) (operand : Value) :
    Except ConditionFault Admitted :=
  match registry.resolve request with
  | .error fault => .error fault
  | .ok o =>
    match o.criterion operand with
    | .error fault => .error fault
    | .ok c => .ok (.criterion o c)

/-- A condition with nothing left to check.  A bare array means membership and a bare literal means
equality. -/
def admission (registry : Registry) (condition : Value) : Except ConditionFault Admitted :=
  match Condition.classify condition with
  | .error fault => .error fault
  | .ok (.sentinel .isNull) => .ok (.nullCheck false)
  | .ok (.sentinel .isNotNull) => .ok (.nullCheck true)
  | .ok (.operator token operand) => operatorAdmission registry (.token token) operand
  | .ok (.array items) => operatorAdmission registry (.implied .isIn) (.list items)
  | .ok (.literal value) => operatorAdmission registry (.implied .equalTo) value

namespace FindOperator

def negatedIf (negated : Bool) (op : FindOperator) : FindOperator := if negated then not op else op

def ofComparison : Comparison → Value → FindOperator
  | .lt => lessThan
  | .le => lessThanOrEqual
  | .gt => moreThan
  | .ge => moreThanOrEqual

def ofCriterion (ctx : BindContext) (origin : Operator) : Criterion → FindOperator
  | .membership negated items => negatedIf negated (isIn items)
  | .order comparison value => ofComparison comparison value
  | .equality negated value => negatedIf negated (equal value)
  | .range negated low high => negatedIf negated (between low high)
  | .pattern placement ignoreCase negated text =>
    let pattern := Value.text (placement.pattern text)
    negatedIf negated (if ignoreCase then ilike pattern else like pattern)
  | .regex ignoreCase negated text =>
    let name := ctx.parameterName none
    raw (.text text) (Criterion.rawTemplate (regexSign ignoreCase negated) name)
      [(name, .text text)] (some origin)
  | .document relation operand json =>
    let name := ctx.parameterName none
    raw operand (Criterion.rawTemplate relation.symbol name) [(name, .text json)] (some origin)
  | .hasKey key =>
    let name := ctx.parameterName (some "key")
    raw (.text key) (Criterion.rawTemplate "?" name) [(name, .text key)] (some origin)

end FindOperator

namespace Admitted

/-- Whether rendering draws an identifier. -/
def drawsId : Admitted → Bool
  | nullCheck _ => false
  | criterion _ _ => true

/-- The query fragment of an admitted condition on an alias. -/
def fragment (id : String) (fieldAlias : Value) : Admitted → Except Fault Fragment
  | nullCheck negated => .ok (.nullCheck fieldAlias.toText negated)
  | criterion o c => c.fragment (.create id o.name fieldAlias)

/-- The abstract operator of an admitted condition on an alias. -/
def findOperator (id : String) (fieldAlias : Value) : Admitted → FindOperator
  | nullCheck negated => .negatedIf negated .isNull
  | criterion o c => .ofCriterion (.create id o.name fieldAlias) o c

end Admitted

/-- A step of compiling, which may draw identifiers and may fail. -/
abbrev Compiling := EStateM Fault IdSource

namespace Compiling

/-- A check that draws no identifier. -/
def ofCheck {α : Type} (check : Except ConditionFault α) : Compiling α :=
  match check with
  | .ok a => pure a
  | .error fault => throw (.raised fault)

/-- The identifier for an admitted condition; the source moves on when it is drawn. -/
def drawFor (a : Admitted) : Compiling String := do
  let ids ← get
  if a.drawsId then set ids.advance
  return ids.current

/-- A rendering that may fail after the identifier has been drawn. -/
def ofRendering {α : Type} (rendering : Except Fault α) : Compiling α :=
  match rendering with
  | .ok a => pure a
  | .error fault => throw fault

end Compiling

/-- A field alias for a query must be a text that is not blank. -/
def checkAlias (fieldAlias : Value) : Except ConditionFault Unit :=
  match fieldAlias with
  | .text s => if Text.isBlankText s then .error (.invalidAlias fieldAlias) else .ok ()
  | _ => .error (.invalidAlias fieldAlias)

/-- A condition on an alias as a query fragment. -/
def compileFragment (registry : Registry) (fieldAlias condition : Value) : Compiling Fragment := do
  Compiling.ofCheck (checkAlias fieldAlias)
  let admitted ← Compiling.ofCheck (admission registry condition)
  let id ← Compiling.drawFor admitted
  Compiling.ofRendering (admitted.fragment id fieldAlias)

/-- A condition as an abstract operator.  The alias only goes into the names of parameters. -/
def compileFind (registry : Registry) (fieldAlias condition : Value) : Compiling FindOperator := do
  let admitted ← Compiling.ofCheck (admission registry condition)
  let id ← Compiling.drawFor admitted
  return admitted.findOperator id fieldAlias

/-- A compiled condition in either encoding. -/
inductive Compiled where
  | fragment (f : Fragment)
  | find (op : FindOperator)

/-- Whether a compiled condition binds any parameter. -/
def Compiled.hasParameters : Compiled → Bool
  | fragment f => !f.parameters.isEmpty
  | find (.raw _ _ parameters _) => !parameters.isEmpty
  | find _ => false

/-- The target that a value names. -/
def resolveTarget (v : Value) : Except ConditionFault Target :=
  match v with
  | .text s =>
    match Target.ofToken? s with
    | some target => .ok target
    | none => .error (.unsupportedTarget v)
  | _ => .error (.unsupportedTarget v)

/-- A condition on an alias, compiled for a target. -/
def compile (registry : Registry) (target fieldAlias condition : Value) : Compiling Compiled := do
  match ← Compiling.ofCheck (resolveTarget target) with
  | .queryBuilder => Compiled.fragment <$> compileFragment registry fieldAlias condition
  | .find => Compiled.find <$> compileFind registry fieldAlias condition

end Criteria
