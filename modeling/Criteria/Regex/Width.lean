import Criteria.Regex.Syntax

/-!
# Widths

How many characters the texts of an expression have, at least and at most.  A back reference is as
wide as its group, and what only looks around has no width.
-/

namespace Criteria.Regex

/-- Bounds for a number of characters.  Without an upper one there may be any number. -/
structure Width where
  least : Nat
  most : Option Nat
  deriving DecidableEq

namespace Width

/-- The width of exactly `n` characters. -/
def exactly (n : Nat) : Width := ⟨n, some n⟩

/-- The width of two expressions in a row. -/
def add (v w : Width) : Width :=
  ⟨v.least + w.least, v.most.bind fun m ↦ w.most.map fun n ↦ m + n⟩

/-- The width of one expression or another. -/
def either (v w : Width) : Width :=
  ⟨min v.least w.least, v.most.bind fun m ↦ w.most.map fun n ↦ max m n⟩

/-- The width of an expression repeated. -/
def times (least : Nat) (most : Option Nat) (w : Width) : Width where
  least := least * w.least
  most := match most, w.most with
    | some m, some n => some (m * n)
    | some 0, none => some 0
    | none, some 0 => some 0
    | _, _ => none

/-- The one number of characters that a width allows, unless it allows several. -/
def fixed? (w : Width) : Option Nat := if w.most = some w.least then some w.least else none

end Width

/-- The width of an expression, given that of each group. -/
def Node.width (ofGroup : Nat → Width) : Node → Width
  | empty => .exactly 0
  | single _ => .exactly 1
  | anchor _ => .exactly 0
  | seq a b => (a.width ofGroup).add (b.width ofGroup)
  | alt a b => (a.width ofGroup).either (b.width ofGroup)
  | group _ a => a.width ofGroup
  | inScope _ _ a => a.width ofGroup
  | atomic a => a.width ofGroup
  | look _ _ _ => .exactly 0
  | back index => ofGroup index
  | given _ yes no => (yes.width ofGroup).either (no.width ofGroup)
  | times _ least most a => (a.width ofGroup).times least most

end Criteria.Regex
