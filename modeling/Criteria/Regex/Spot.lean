import Criteria.Regex.Class

/-!
# Places in a text

A place divides a text into the characters before it and those after it.  A match in progress has
got to a place and has opened and closed groups at others; together these make a spot.
-/

namespace Criteria.Regex

/-- A place in a text: the characters before it, the nearest first, those after it, and the number
of the latter. -/
structure Place where
  before : List Char
  after : List Char
  left : Nat

namespace Place

/-- The place `n` characters before. -/
def back? : (n : Nat) → Place → Option Place
  | 0, p => some p
  | _ + 1, ⟨[], _, _⟩ => none
  | n + 1, ⟨c :: before, after, left⟩ => back? n ⟨before, c :: after, left + 1⟩

/-- Whether the character before the place is of a word. -/
def wordBefore (ascii : Bool) (p : Place) : Bool := p.before.head?.any (Category.word.holds ascii)

/-- Whether the character after the place is of a word. -/
def wordAfter (ascii : Bool) (p : Place) : Bool := p.after.head?.any (Category.word.holds ascii)

end Place

/-- Whether an anchor holds at a place.  In an empty text neither kind of boundary holds. -/
def Anchor.holds (m : Mode) : Anchor → Place → Bool
  | start, p => p.before.isEmpty
  | lineStart, p => p.before.isEmpty || (m.multiline && p.before.head? == some '\n')
  | lineEnd, p =>
    p.after.isEmpty || p.after == ['\n'] || (m.multiline && p.after.head? == some '\n')
  | finish, p => p.after.isEmpty
  | boundary, p => p.wordBefore m.ascii != p.wordAfter m.ascii
  | noBoundary, p =>
    !(p.before.isEmpty && p.after.isEmpty) && p.wordBefore m.ascii == p.wordAfter m.ascii

/-- Where a group was opened last, and where it was closed last. -/
structure Capture where
  opened : Option Place
  closed : Option Place

namespace Capture

/-- A group that has not been reached. -/
def none : Capture := ⟨.none, .none⟩

/-- The text of a group.  A group that has been opened again behind its last end has none. -/
def text? (c : Capture) : Option (List Char) :=
  match c.opened, c.closed with
  | some first, some last =>
    if last.left ≤ first.left then some (first.after.take (first.left - last.left)) else .none
  | _, _ => .none

end Capture

/-- What a match in progress has come to: a place, and what is known of each group. -/
structure Spot where
  place : Place
  captures : List Capture

namespace Spot

/-- The spot after the next character, if that character passes a test. -/
def step? (test : Char → Bool) (s : Spot) : Option Spot :=
  match s.place.after with
  | [] => none
  | c :: rest =>
    if test c then some { s with place := ⟨c :: s.place.before, rest, s.place.left - 1⟩ } else none

/-- The spot after characters that stand for given ones. -/
def spell? (same : Char → Char → Bool) : List Char → Spot → Option Spot
  | [], s => some s
  | c :: rest, s =>
    match s.step? (same c) with
    | some t => spell? same rest t
    | none => none

/-- The text of a group, which are counted from one. -/
def text? (index : Nat) (s : Spot) : Option (List Char) :=
  (s.captures[index - 1]?).bind Capture.text?

/-- The spot where a group is opened. -/
def opening (index : Nat) (s : Spot) : Spot :=
  { s with captures := s.captures.modify (index - 1) fun c ↦ { c with opened := some s.place } }

/-- The spot where a group is closed. -/
def closing (index : Nat) (s : Spot) : Spot :=
  { s with captures := s.captures.modify (index - 1) fun c ↦ { c with closed := some s.place } }

/-- Whether two spots are at the same place of one text. -/
def samePlace (s t : Spot) : Bool := s.place.left == t.place.left

end Spot

end Criteria.Regex
