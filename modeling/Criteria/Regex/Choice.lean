import Criteria.Regex.Syntax

/-!
# Alternatives

What all alternatives begin with stands in front of them once, and alternatives that are then single
characters or classes make one class.
-/

namespace Criteria.Regex

namespace Node

/-- Whether two expressions are the same character, class, anchor or back reference. -/
def sameUnit : Node → Node → Bool
  | single s, single t => s == t
  | anchor a, anchor b => a == b
  | back i, back j => i == j
  | _, _ => false

/-- The members of the class that expressions in a row amount to, if they amount to one. -/
def members? : List Node → Option (List ClassItem)
  | [single (.char c)] => some [.char c]
  | [single (.set false items)] => some items
  | _ => none

/-- What an alternative and all others begin with. -/
def commonFront : List Node → List (List Node) → List Node
  | [], _ => []
  | node :: rest, others =>
    if others.all fun other ↦ (other.head?.map node.sameUnit).getD false then
      node :: commonFront rest (others.map List.tail)
    else []

/-- The choice between alternatives, each of them expressions in a row. -/
def choice : List (List Node) → List Node
  | [] => []
  | [branch] => branch
  | first :: others =>
    let front := commonFront first others
    let rests := (first :: others).map (·.drop front.length)
    front ++ [match rests.mapM members? with
      | some members => single (.set false members.flatten.eraseDups)
      | none => ofBranches (rests.map ofList)]

end Node

end Criteria.Regex
