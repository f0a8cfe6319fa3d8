import Criteria.Regex.Spot

/-!
# Repeats

A way to match takes what is still to be matched afterwards and a spot, and tells where everything
ends; of several possibilities the first that leads to an end counts.  A repeat tries its turns in
the order that its manner prefers.  A turn beyond the required ones that stays where it is is the
last one, so as many turns as characters are left, and one more, are always enough.
-/

namespace Criteria.Regex

/-- A way to match from a spot, given how to match what comes afterwards. -/
abbrev Way := (Spot → Option Spot) → Spot → Option Spot

namespace Way

/-- Exactly `n` turns. -/
def exactly (body : Way) : (n : Nat) → Way
  | 0, k, s => k s
  | n + 1, k, s => body (exactly body n k) s

/-- At most `n` turns, rather more than fewer. -/
def greedily (body : Way) : (n : Nat) → Way
  | 0, k, s => k s
  | n + 1, k, s =>
    -- A turn that goes nowhere is the last one, or the turns would never end.
    match body (fun t ↦ if s.samePlace t then k t else greedily body n k t) s with
    | some last => some last
    | none => k s

/-- At most `n` turns, rather fewer than more. -/
def lazily (body : Way) : (n : Nat) → Way
  | 0, k, s => k s
  | n + 1, k, s =>
    match k s with
    | some last => some last
    | none => body (fun t ↦ if s.samePlace t then k t else lazily body n k t) s

/-- The spot after turns that are taken as long as there are any, each in its first way, at most
`n` of them. -/
def exhausting (body : Way) : (n : Nat) → Spot → Spot
  | 0, s => s
  | n + 1, s =>
    match body some s with
    | none => s
    | some t => if s.samePlace t then t else exhausting body n t

/-- Exactly `n` turns, each in its first way. -/
def exactlyFirst (body : Way) : (n : Nat) → Spot → Option Spot
  | 0, s => some s
  | n + 1, s =>
    match body some s with
    | some t => exactlyFirst body n t
    | none => none

/-- A repeat of `least` to `most` turns. -/
def times (manner : Manner) (least : Nat) (most : Option Nat) (body : Way) : Way := fun k s ↦
  -- No more turns than characters are left can go anywhere, and one more may go nowhere.
  let further (t : Spot) : Nat :=
    match most with
    | some n => min (n - least) (t.place.left + 1)
    | none => t.place.left + 1
  match manner with
  | .greedy => exactly body least (fun t ↦ greedily body (further t) k t) s
  | .lazy => exactly body least (fun t ↦ lazily body (further t) k t) s
  | .possessive =>
    match exactlyFirst body least s with
    | some t => k (exhausting body (further t) t)
    | none => none

end Way

/-- The spots from one on, the last one first, each a character that passes a test after the one
before it, at most `n` beyond the first. -/
def Spot.onward (test : Char → Bool) : (n : Nat) → Spot → (passed : List Spot) → List Spot
  | 0, s, passed => s :: passed
  | n + 1, s, passed =>
    match s.step? test with
    | some t => onward test n t (s :: passed)
    | none => s :: passed

/-- The spot after exactly `n` characters that pass a test. -/
def Spot.after? (test : Char → Bool) : (n : Nat) → Spot → Option Spot
  | 0, s => some s
  | n + 1, s =>
    match s.step? test with
    | some t => after? test n t
    | none => none

/-- A repeat of single characters that pass a test.  Where it can end is known before any of its
ends is tried. -/
def Way.timesSingle (manner : Manner) (least : Nat) (most : Option Nat) (test : Char → Bool) :
    Way := fun k s ↦
  match s.after? test least with
  | none => none
  | some t =>
    let further := (most.map fun n ↦ n - least).getD t.place.left
    let ends := t.onward test (min further t.place.left) []
    match manner with
    | .greedy => ends.findSome? k
    | .lazy => ends.reverse.findSome? k
    | .possessive => ends.head?.bind k

end Criteria.Regex
