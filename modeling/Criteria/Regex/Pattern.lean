import Criteria.Regex.Class

/-!
# Patterns

A pattern is a regular expression together with the mode of the whole of it and the number of its
groups.  A search tries only the places that the class at the front of the expression admits.  That
class is read in the mode of the whole, also where it stands in a scope that looks at other
characters; when the two agree it admits every place at which a match can begin.
-/

namespace Criteria.Regex

/-- A class of characters. -/
structure FrontClass where
  negated : Bool
  items : List ClassItem

/-- The class at the front of an expression, if it stands in a scope that differs from the whole in
whether only the characters of ASCII are looked at.  A class that depends on case is passed over. -/
def Node.front? (whole : Mode) : Node → Mode → Option FrontClass
  | single (.set negated items), m =>
    if m.ascii == whole.ascii then none
    else if m.ignoreCase && items.any fun item ↦ item.isCased m then none
    else some ⟨negated, items⟩
  | seq a _, m => a.front? whole m
  | group _ a, m => a.front? whole m
  | inScope added removed a, m => a.front? whole (m.change added removed)
  | _, _ => none

/-- A regular expression that can be searched for. -/
structure Pattern where
  mode : Mode
  /-- The number of its groups. -/
  groups : Nat
  node : Node
  front : Option FrontClass

namespace Pattern

/-- The pattern of an expression that is `least` characters wide at least.  One that can be empty is
tried at every place. -/
def ofNode (mode : Mode) (groups least : Nat) (node : Node) : Pattern :=
  ⟨mode, groups, node, if least = 0 then none else node.front? mode mode⟩

/-- Whether a match is looked for before some characters. -/
def admits (p : Pattern) (after : List Char) : Bool :=
  match p.front, after with
  | none, _ => true
  | some _, [] => false
  | some f, c :: _ => inClass { p.mode with ignoreCase := false } f.negated f.items c

end Pattern

end Criteria.Regex
