import Criteria.Value.Basic
import Criteria.Text.Word
import Criteria.Text.Blank

/-!
# Names of bound parameters

Every compiled condition draws one identifier, and all its parameters are named
`identifier_operator_field`, some with a suffix.  The field becomes part of a name once every
character that is not of a word is replaced.
-/

namespace Criteria

/-- Where identifiers come from: a numbered sequence, or given identifiers one after the other, of
which the last comes over and over.  Whatever makes the identifiers, a run draws finitely many of
them, so it draws them from a list. -/
inductive IdSource where
  | sequence (lead : String) (next : Int)
  | given (first : String) (rest : List String)
  deriving DecidableEq

namespace IdSource

/-- The sequence `p1`, `p2`, and so on. -/
def standard : IdSource := sequence "p" 1

/-- One identifier over and over. -/
def constant (id : String) : IdSource := given id []

def current : IdSource → String
  | sequence lead next => lead ++ toString next
  | given first _ => first

/-- The source after one identifier has been drawn. -/
def advance : IdSource → IdSource
  | sequence lead next => sequence lead (next + 1)
  | given first [] => given first []
  | given _ (second :: rest) => given second rest

/-- The first identifiers of a source. -/
def take : Nat → IdSource → List String
  | 0, _ => []
  | n + 1, source => source.current :: take n source.advance

end IdSource

/-- The part of a name for fields that have no name of their own. -/
def defaultSegment : String := "field"

/-- The part of a parameter's name that comes from the field. -/
def fieldSegment : Value → String
  | .text s =>
    if Text.isBlankText s then defaultSegment
    else String.ofList (Text.wordOnly (Text.trim s.toList))
  | _ => defaultSegment

/-- The alias of a field and the name that all parameters of one condition begin with. -/
structure BindContext where
  fieldAlias : String
  stem : String
  deriving DecidableEq

namespace BindContext

/-- The context of an operator with an identifier. -/
def create (id operator : String) (fieldAlias : Value) : BindContext where
  fieldAlias := match fieldAlias with
    | .text s => s
    | _ => ""
  stem := id ++ "_" ++ operator ++ "_" ++ fieldSegment fieldAlias

/-- The name of the parameter with a suffix.  An empty suffix is none. -/
def parameterName (ctx : BindContext) : Option String → String
  | some suffix => if suffix.isEmpty then ctx.stem else ctx.stem ++ "_" ++ suffix
  | none => ctx.stem

end BindContext

/-- Named values, each name once, in the order in which they were bound. -/
abbrev Parameters := List (String × Value)

namespace Parameters

def get? (ps : Parameters) (name : String) : Option Value :=
  (ps.find? fun p ↦ p.1 == name).map (·.2)

def binds (ps : Parameters) (name : String) : Bool := ps.any fun p ↦ p.1 == name

def put (name : String) (value : Value) : Parameters → Parameters
  | [] => [(name, value)]
  | (n, v) :: rest => if n = name then (n, value) :: rest else (n, v) :: put name value rest

/-- The parameters that come from putting pairs one after the other. -/
def ofPairs (pairs : List (String × Value)) : Parameters :=
  pairs.foldl (fun ps p ↦ put p.1 p.2 ps) []

def toValue (ps : Parameters) : Value := .dict (ps.map fun p ↦ (.text p.1, p.2))

end Parameters

end Criteria
