import Criteria.Fault
import Criteria.Sql.Output
import Criteria.Sql.Placeholder
import Criteria.Value.Entries

/-!
# Texts with bound parameters

A clause that is given as text has a bind for each of its placeholders.  A placeholder that no
value is supplied for is null, and a value that no placeholder asks for is refused.
-/

namespace Criteria.Sql

/-- A bind for a placeholder, and whether it goes by the placeholder's name. -/
structure Supply where
  bind : Bind
  named : Bool

/-- What the name of a parameter begins with that has neither a name nor a column. -/
def unnamedBase : String := "param"

/-- A text and the binds for its placeholders. -/
structure BoundText where
  text : String
  binds : List (String × Supply)

namespace BoundText

/-- A text none of whose placeholders has a value yet. -/
def bare (text : String) : BoundText :=
  ⟨text, (placeholderNames text).map fun name ↦ (name, ⟨⟨.null, false⟩, true⟩)⟩

def asksFor (t : BoundText) (name : String) : Bool := t.binds.any fun b ↦ b.1 == name

/-- The text with a bind supplied for a placeholder. -/
def supply (name : String) (supplied : Supply) (t : BoundText) : Except Fault BoundText :=
  if t.asksFor name then
    .ok { t with binds := t.binds.map fun b ↦ if b.1 = name then (name, supplied) else b }
  else .error (.unknownBind name)

/-- The text with binds supplied one after the other. -/
def supplyAll : List (String × Supply) → BoundText → Except Fault BoundText
  | [], t => .ok t
  | (name, supplied) :: rest, t =>
    match t.supply name supplied with
    | .ok t => supplyAll rest t
    | .error fault => .error fault

/-- A list to be spread out must have a first item, unless it is empty, missing or zero. -/
def checkSpread : Value → Except Fault Unit
  | .null | .list _ | .tuple _ | .text _ | .bytes _ | .set [] | .dict [] => .ok ()
  | .dict entries =>
    if (Value.lookup? entries (.int 0)).isSome then .ok () else .error (.unknownKey (.int 0))
  | v => if v.equal (.int 0) then .ok () else .error (.notSubscriptable v)

/-- What a parameter of a fragment supplies.  One with an empty name takes the place of `param`, and
gets a name of its own when the statement is written. -/
def supplyOf (name : String) (bind : Bind) : String × Supply :=
  if name.isEmpty then (unnamedBase, ⟨bind, false⟩) else (name, ⟨bind, true⟩)

/-- What parameters supply, some of which are lists to be spread out. -/
def suppliesOf (spreadNames : List String) : Parameters → Except Fault (List (String × Supply))
  | [] => .ok []
  | (name, value) :: rest =>
    let spread := spreadNames.contains name
    match (if spread then checkSpread value else .ok ()) with
    | .error fault => .error fault
    | .ok () =>
      match suppliesOf spreadNames rest with
      | .error fault => .error fault
      | .ok supplies => .ok (supplyOf name ⟨value, spread⟩ :: supplies)

/-- A fragment as a text.  Its lists lose the brackets around them, as they bring their own. -/
def ofFragment (query : String) (parameters : Parameters) : Except Fault BoundText :=
  let signs := signs query
  match suppliesOf (signs.filterMap Sign.spreadName?) parameters with
  | .error fault => .error fault
  | .ok supplies => (bare (String.ofList (signs.flatMap Sign.chars))).supplyAll supplies

/-- The names under which no value can be supplied to a template, each with what claims it. -/
def reservedNames : List (String × String) :=
  [("self", "TextClause.bindparams"), ("fn", "_generative.<locals>._generative")]

/-- A text in which values are supplied by name and none is spread out. -/
def ofTemplate (text : String) (parameters : Parameters) : Except Fault BoundText :=
  match reservedNames.find? fun r ↦ parameters.any fun p ↦ p.1 == r.1 with
  | some (name, owner) => .error (.reservedName owner name)
  | none => (bare text).supplyAll (parameters.map fun p ↦ (p.1, ⟨⟨p.2, false⟩, true⟩))

/-- Whether what follows a backslash is a colon that the backslash is there for. -/
def isEscaped : List Char → Bool
  | ':' :: rest => (rest.dropWhile Text.isWord).head? != some ':'
  | _ => false

/-- The parameter of a name, if it is the name of a placeholder and no colon follows it, and else
the characters as they are. -/
def parameterPiece (binds : List (String × Supply)) (name : List Char) (closed : Bool) : Piece :=
  match binds.find? fun b ↦ closed && b.1 == String.ofList name with
  | some (name, supplied) =>
    if supplied.named then .named name supplied.bind else .unnamed name false supplied.bind
  | none => .text (String.ofList (':' :: name))

mutual

/-- The pieces of a text, from after a character on. -/
def piecesFrom (binds : List (String × Supply)) (before : Option Char) : List Char → List Piece
  | [] => []
  | c :: rest =>
    if c = ':' && mayPrecede before then nameFrom binds [] rest
    else if c = '\\' && isEscaped rest then piecesFrom binds (some c) rest
    else .text (toString c) :: piecesFrom binds (some c) rest
termination_by structural cs => cs

/-- The pieces of a text, from within a name on. -/
def nameFrom (binds : List (String × Supply)) (name : List Char) : List Char → List Piece
  | [] => [parameterPiece binds name true]
  | c :: rest =>
    if Text.isWord c then nameFrom binds (name ++ [c]) rest
    else if c = '\\' && isEscaped rest then
      parameterPiece binds name true :: piecesFrom binds (some c) rest
    else
      parameterPiece binds name (c != ':') :: .text (toString c) ::
        piecesFrom binds (some c) rest
termination_by structural cs => cs

end

/-- Pieces in which the first unnamed parameter stands for all of them. -/
def sharing : (seen : Bool) → List Piece → List Piece
  | _, [] => []
  | false, .unnamed base exclusive bind :: rest =>
    .unnamed base exclusive bind :: sharing true rest
  | true, .unnamed base _ _ :: rest => .again base :: sharing true rest
  | seen, piece :: rest => piece :: sharing seen rest

/-- The pieces of a text.  A placeholder that stands in it several times is one parameter. -/
def pieces (t : BoundText) : List Piece := sharing false (piecesFrom t.binds none t.text.toList)

end BoundText

end Criteria.Sql
