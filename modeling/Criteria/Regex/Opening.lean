import Criteria.Regex.Notes
import Criteria.Text.Blank
import Criteria.Text.Identifier

/-!
# What opens a bracket

After an opening round bracket a question mark says that something other than a plain group begins:
a group with a name or without a number, flags, a look around, a condition on a group, a reference
to a named group or a comment.
-/

namespace Criteria.Regex

/-- What surrounds the expression inside a bracket. -/
inductive Enclosure where
  | group (index : Nat)
  | plain
  | inScope (added removed : List Flag)
  | atomic
  | ahead (negated : Bool)
  | behind (negated : Bool)

/-- What a bracket begins. -/
inductive Opening where
  | body (kind : Enclosure)
  | given (index : Nat)
  | whole (node : Node)
  | flags (added : List Flag)
  | comment

/-- What stands before the next `stop`, and what follows that. -/
def spanUntil? (stop : Char) (cs : List Char) : Option (List Char × List Char) :=
  match cs.dropWhile (· ≠ stop) with
  | [] => none
  | _ :: rest => some (cs.takeWhile (· ≠ stop), rest)

/-- An identifier up to the next `stop`, and what follows that. -/
def readName? (stop : Char) (cs : List Char) : Option (List Char × List Char) :=
  match spanUntil? stop cs with
  | some (name, rest) => if Text.isIdentifier name then some (name, rest) else none
  | none => none

/-- What follows a comment in brackets.  An escaped bracket does not end it. -/
def skipComment? : List Char → Option (List Char)
  | [] => none
  | ')' :: rest => some rest
  | '\\' :: rest =>
    match rest with
    | [] => none
    | _ :: rest => skipComment? rest
  | _ :: rest => skipComment? rest

/-- Digits of any script, between which single low lines may stand. -/
def spacedDigits? : List Char → Option (List Nat)
  | [] => none
  | [c] => (Text.digitValue? c).map fun d ↦ [d]
  | c :: '_' :: rest =>
    (Text.digitValue? c).bind fun d ↦ (spacedDigits? rest).map fun ds ↦ d :: ds
  | c :: rest => (Text.digitValue? c).bind fun d ↦ (spacedDigits? rest).map fun ds ↦ d :: ds

/-- The number of a group in a condition: blanks around it and a plus sign before it do not
matter. -/
def groupNumber? (cs : List Char) : Option Nat :=
  let digits := match Text.trim cs with
    | '+' :: digits => digits
    | digits => digits
  match spacedDigits? digits with
  | some values => if Text.digitLimit < values.length then none else some (Text.ofDigits 10 values)
  | none => none

/-- The group that a condition asks for, by its name or its number, and what follows. -/
def readCondition (cs : List Char) : Reading (Nat × List Char) := do
  let (name, rest) ← Reading.require (spanUntil? ')' cs)
  let index ←
    if Text.isIdentifier name then Reading.named name else Reading.require (groupNumber? name)
  return (← Reading.askFor index, rest)

/-- Flags at the front of a text, and what follows them. -/
def spanFlags (cs : List Char) : List Flag × List Char :=
  ((cs.takeWhile fun c ↦ (Flag.ofLetter? c).isSome).filterMap Flag.ofLetter?,
    cs.dropWhile fun c ↦ (Flag.ofLetter? c).isSome)

/-- Flags for the whole expression or for what follows in the bracket.  In a bracket flags may be
removed after a dash, but not those that choose the characters; no flag may be added and removed,
and that nothing may be repeated can be said of the whole only. -/
def readFlags? (cs : List Char) : Option (Opening × List Char) :=
  let (added, rest) := spanFlags cs
  if added.contains .ascii && added.contains .unicode then none
  else match rest with
    | ')' :: rest => if added.isEmpty then none else some (.flags added, rest)
    | ':' :: rest =>
      if added.contains .noRepeats then none else some (.body (.inScope added []), rest)
    | '-' :: rest =>
      let (removed, rest) := spanFlags rest
      let fixed : List Flag := [.ascii, .unicode, .noRepeats]
      if removed.isEmpty || added.contains .noRepeats || removed.any fixed.contains
          || removed.any added.contains then none
      else match rest with
        | ':' :: rest => some (.body (.inScope added removed), rest)
        | _ => none
    | _ => none

/-- What a bracket begins, and what follows that. -/
def readOpening : List Char → Reading (Opening × List Char)
  | '?' :: 'P' :: '<' :: rest => do
    let (name, rest) ← Reading.require (readName? '>' rest)
    return (.body (.group (← Reading.openGroup (some name))), rest)
  | '?' :: 'P' :: '=' :: rest => do
    let (name, rest) ← Reading.require (readName? ')' rest)
    return (.whole (← Reading.referTo (← Reading.named name)), rest)
  | '?' :: ':' :: rest => return (.body .plain, rest)
  | '?' :: '>' :: rest => return (.body .atomic, rest)
  | '?' :: '=' :: rest => return (.body (.ahead false), rest)
  | '?' :: '!' :: rest => return (.body (.ahead true), rest)
  | '?' :: '<' :: '=' :: rest => return (.body (.behind false), rest)
  | '?' :: '<' :: '!' :: rest => return (.body (.behind true), rest)
  | '?' :: '#' :: rest => do return (.comment, ← Reading.require (skipComment? rest))
  | '?' :: '(' :: rest => do
    let (index, rest) ← readCondition rest
    return (.given index, rest)
  | '?' :: rest => Reading.require (readFlags? rest)
  | rest => do return (.body (.group (← Reading.openGroup none)), rest)

end Criteria.Regex
