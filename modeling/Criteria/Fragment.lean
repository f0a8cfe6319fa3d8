import Criteria.Binding
import Criteria.Criterion

/-!
# Query fragments

A fragment is the text of a condition in a query together with the values of its parameters.  A
parameter stands in the text as `:name`, and as `:...name` when its value is a list to be spread
out.
-/

namespace Criteria

/-- A piece of a query and the values of its parameters. -/
structure Fragment where
  query : String
  parameters : Parameters

namespace Fragment

def nullCheck (fieldAlias : String) (negated : Bool) : Fragment :=
  ⟨fieldAlias ++ (if negated then " IS NOT NULL" else " IS NULL"), []⟩

/-- An alias, a sign and one parameter. -/
def binary (ctx : BindContext) (sign : String) (name : String) (value : Value) : Fragment :=
  ⟨ctx.fieldAlias ++ " " ++ sign ++ " :" ++ name, [(name, value)]⟩

end Fragment

def keyword (negated : Bool) (word : String) : String := if negated then "NOT " ++ word else word

def regexSign (ignoreCase negated : Bool) : String :=
  (if negated then "!~" else "~") ++ (if ignoreCase then "*" else "")

def patternWord (ignoreCase negated : Bool) : String :=
  keyword negated (if ignoreCase then "ILIKE" else "LIKE")

namespace Criterion

/-- The text of a raw criterion, with a field for the alias of the column. -/
def rawTemplate (sign name : String) : String := "\x7balias\x7d " ++ sign ++ " :" ++ name

/-- The fragment of a criterion.  The text of a document criterion is filled into a template that
holds the parameter's name, so an identifier with a brace in it is read as a part of the
template. -/
def fragment (ctx : BindContext) : Criterion → Except Fault Fragment
  | membership negated items =>
    let name := ctx.parameterName none
    .ok ⟨ctx.fieldAlias ++ " " ++ keyword negated "IN" ++ " (:..." ++ name ++ ")",
      [(name, .list items)]⟩
  | order comparison value =>
    .ok (.binary ctx comparison.symbol (ctx.parameterName none) value)
  | equality negated value =>
    .ok (.binary ctx (if negated then "<>" else "=") (ctx.parameterName none) value)
  | range negated low high =>
    let first := ctx.parameterName (some "start")
    let last := ctx.parameterName (some "end")
    .ok ⟨ctx.fieldAlias ++ " " ++ keyword negated "BETWEEN" ++ " :" ++ first ++ " AND :" ++ last,
      [(first, low), (last, high)]⟩
  | pattern placement ignoreCase negated text =>
    .ok (.binary ctx (patternWord ignoreCase negated) (ctx.parameterName none)
      (.text (placement.pattern text)))
  | regex ignoreCase negated text =>
    .ok (.binary ctx (regexSign ignoreCase negated) (ctx.parameterName none) (.text text))
  | document relation _ json =>
    let name := ctx.parameterName none
    match Template.fill (rawTemplate relation.symbol name) ctx.fieldAlias with
    | .ok query => .ok ⟨query, [(name, .text json)]⟩
    | .error fault => .error (.template fault)
  | hasKey key => .ok (.binary ctx "?" (ctx.parameterName (some "key")) (.text key))

end Criterion

end Criteria
