import Criteria.Regex.Pattern
import Criteria.Regex.Turns

/-!
# Searching a text for a regular expression

An expression tries its possibilities in order, and each goes on with what comes after the
expression; the first possibility for which that leads to an end counts.  So a group holds the text
of that possibility, and what is left behind can be taken up again unless it stands in an atomic
group, a possessive repeat or a look around.  A text holds a match when there is one from any of its
places.
-/

namespace Criteria.Regex

/-- The way in which an expression matches. -/
def Node.way : Node → Mode → Way
  | empty, _ => fun k s ↦ k s
  | single u, m => fun k s ↦
    match s.step? (u.holds m) with
    | some t => k t
    | none => none
  | anchor a, m => fun k s ↦ if a.holds m s.place then k s else none
  | seq a b, m => fun k s ↦ a.way m (b.way m k) s
  | alt a b, m => fun k s ↦
    match a.way m k s with
    | some last => some last
    | none => b.way m k s
  | group index a, m => fun k s ↦ a.way m (fun t ↦ k (t.closing index)) (s.opening index)
  | inScope added removed a, m => a.way (m.change added removed)
  | atomic a, m => fun k s ↦
    match a.way m some s with
    | some t => k t
    | none => none
  | look direction negated a, m => fun k s ↦
    let from? := match direction with
      | .ahead => some s.place
      | .behind width => s.place.back? width
    match from?.bind fun p ↦ a.way m some { s with place := p }, negated with
    | some t, false => k { t with place := s.place }
    | none, true => k s
    | _, _ => none
  | back index, m => fun k s ↦
    let same (c d : Char) : Bool :=
      if m.ignoreCase then m.lower c.toNat == m.lower d.toNat else c == d
    match (s.text? index).bind fun text ↦ s.spell? same text with
    | some t => k t
    | none => none
  | given index yes no, m => fun k s ↦
    if (s.text? index).isSome then yes.way m k s else no.way m k s
  | times manner least most (single u), m => .timesSingle manner least most (u.holds m)
  | times manner least most a, m => .times manner least most (a.way m)

namespace Pattern

/-- Whether there is a match from a place. -/
def matchesAt (p : Pattern) (place : Place) : Bool :=
  p.admits place.after &&
    (p.node.way p.mode some ⟨place, List.replicate p.groups .none⟩).isSome

/-- Whether there is a match from a place with some characters before it, or from a later one. -/
def matchesFrom (p : Pattern) (before : List Char) (left : Nat) : List Char → Bool
  | [] => p.matchesAt ⟨before, [], left⟩
  | c :: rest =>
    p.matchesAt ⟨before, c :: rest, left⟩ || p.matchesFrom (c :: before) (left - 1) rest

/-- Whether a text holds a match. -/
def foundIn (p : Pattern) (text : String) : Bool :=
  p.matchesFrom [] text.toList.length text.toList

end Pattern

end Criteria.Regex
