import Criteria.Regex.Choice
import Criteria.Regex.Escape
import Criteria.Regex.Opening
import Criteria.Regex.Pattern

/-!
# Reading regular expressions

The concrete syntax of regular expressions.  A brace that does not form a count is a character.  A
pattern is refused when a bracket is not closed, when there is nothing to repeat, when a repeat is
repeated, when the bounds of a count or of a range are out of order, when a group is referred to
that is not closed, when flags for the whole do not stand at its front, when a look behind has no
fixed width, and when a count is too large.  Of several faults the first one counts.
-/

namespace Criteria.Regex

/-- How often something is to be repeated, by the digits of the bounds. -/
structure Count where
  least : List Nat
  most : List Nat

namespace Count

/-- Counts are below this bound. -/
def bound : Nat := Nat.pow 2 32 - 1

/-- The number of a bound, unless there are no digits. -/
def number (digits : List Nat) : Except PatternFault (Option Nat) :=
  if Text.digitLimit < digits.length then .error (.tooManyDigits digits.length)
  else if bound ≤ Text.ofDigits 10 digits then .error .countTooLarge
  else .ok (if digits.isEmpty then none else some (Text.ofDigits 10 digits))

/-- The bounds of a count, which must be in order. -/
def check (c : Count) : Except PatternFault (Nat × Option Nat) := do
  let least := (← number c.least).getD 0
  let most ← number c.most
  if most.any (· < least) then throw .malformed
  return (least, most)

end Count

/-- Decimal digits at the front of a text, and what follows them. -/
def spanDecimal (cs : List Char) : List Nat × List Char :=
  ((cs.takeWhile fun c ↦ (Text.asciiDigit? c).isSome).filterMap Text.asciiDigit?,
    cs.dropWhile fun c ↦ (Text.asciiDigit? c).isSome)

/-- A count in braces after the opening brace, and what follows it. -/
def readBraces? (cs : List Char) : Option (Count × List Char) :=
  let (low, rest) := spanDecimal cs
  match rest with
  | '\x7d' :: rest => if low.isEmpty then none else some (⟨low, low⟩, rest)
  | ',' :: rest =>
    let (high, rest) := spanDecimal rest
    match rest with
    | '\x7d' :: rest => some (⟨low, high⟩, rest)
    | _ => none
  | _ => none

/-- A count at the front of a text, and what follows it.  Braces that form no count are none. -/
def readCount? : List Char → Option (Count × List Char)
  | '*' :: rest => some (⟨[], []⟩, rest)
  | '+' :: rest => some (⟨[1], []⟩, rest)
  | '?' :: rest => some (⟨[], [1]⟩, rest)
  | '\x7b' :: rest => readBraces? rest
  | _ => none

/-- Which turns are preferred, by the sign after a count, and what follows it. -/
def readManner : List Char → Manner × List Char
  | '?' :: rest => (.lazy, rest)
  | '+' :: rest => (.possessive, rest)
  | rest => (.greedy, rest)

/-- The expression at the front of a text that is neither a bracket nor a repeat, and what follows
it. -/
def readAtom : List Char → Reading (Node × List Char)
  | [] => Reading.refuse
  | '.' :: rest => return (.single .any, rest)
  | '^' :: rest => return (.anchor .lineStart, rest)
  | '$' :: rest => return (.anchor .lineEnd, rest)
  | '[' :: rest => do
    let (s, rest) ← Reading.require (readClass? rest)
    return (.single s, rest)
  | '\\' :: rest => do
    let (escape, rest) ← Reading.require (readEscape? false rest)
    match escape with
    | .char code => return (.single (.char code), rest)
    | .category kind negated => return (.single (.set false [.category kind negated]), rest)
    | .anchor a => return (.anchor a, rest)
    | .back index => return (← Reading.referTo index, rest)
  | c :: rest => return (.single (.char c.toNat), rest)

/-- Expressions in a row that are repeated together, and whether they may be: neither an anchor nor
a repeat may, but a group of them may. -/
structure Term where
  nodes : List Node
  repeatable : Bool

namespace Term

/-- The term of one expression. -/
def ofNode (node : Node) : Term :=
  ⟨[node], match node with
    | .anchor _ => false
    | _ => true⟩

/-- A term repeated. -/
def times (manner : Manner) (least : Nat) (most : Option Nat) (t : Term) : Term :=
  ⟨[.times manner least most (.ofList t.nodes)], false⟩

end Term

/-- The repeat of the last of the terms that have been read, and what follows it.  The sign after a
count is read with it, so a backslash at the very end is found before the count is looked at. -/
def repeatLast (count : Count) (done : List Term) (rest : List Char) :
    Reading (List Term × List Char) := do
  if rest = ['\\'] then Reading.refuse
  let (least, most) ← count.check
  match done with
  | [] => Reading.refuse
  | t :: done =>
    if !t.repeatable then Reading.refuse
    Reading.noteRepeat
    let (manner, rest) := readManner rest
    return (t.times manner least most :: done, rest)

/-- Whether a character is no part of an expression in which blanks do not count. -/
def isSkipped (c : Char) : Bool :=
  [' ', '\t', '\n', '\r', '\x0b', '\x0c'].contains c

/-- What follows a comment that goes to the end of its line.  An escaped line break does not end
it. -/
def skipLine? : List Char → Option (List Char)
  | [] => some []
  | '\n' :: rest => some rest
  | '\\' :: rest =>
    match rest with
    | [] => none
    | _ :: rest => skipLine? rest
  | _ :: rest => skipLine? rest

/-- What follows a closing bracket. -/
def afterBracket : List Char → Reading (List Char)
  | ')' :: rest => return rest
  | _ => Reading.refuse

/-- Whether blanks and comments are skipped inside a bracket. -/
def Enclosure.skips (skipping : Bool) : Enclosure → Bool
  | inScope added removed => (skipping || added.contains .verbose) && !removed.contains .verbose
  | _ => skipping

/-- What a bracket holds, in its enclosure, and what follows it.  A bracket that only joins leaves
nothing but its contents. -/
def enclose (kind : Enclosure) (inside : Reading (List Node × List Char)) :
    Reading (Term × List Char) := do
  match kind with
  | .plain => do
    let (nodes, rest) ← inside
    return (⟨nodes, true⟩, rest)
  | .group index => do
    let (nodes, rest) ← inside
    Reading.closeGroup index (.ofList nodes)
    return (.ofNode (.group index (.ofList nodes)), rest)
  | .inScope added removed => do
    let (nodes, rest) ← inside
    return (.ofNode (.inScope added removed (.ofList nodes)), rest)
  | .atomic => do
    let (nodes, rest) ← inside
    return (.ofNode (.atomic (.ofList nodes)), rest)
  | .ahead negated => do
    let (nodes, rest) ← inside
    return (.ofNode (.look .ahead negated (.ofList nodes)), rest)
  | .behind negated => do
    let (width, node, rest) ← Reading.lookingBehind do
      let (nodes, rest) ← inside
      return (.ofList nodes, rest)
    return (.ofNode (.look (.behind width) negated node), rest)

mutual

/-- Alternatives at the front of a text after those that have been read, given from the last to the
first, and what follows them. -/
def readAlternatives : (size : Nat) → (whole skipping : Bool) → (done : List (List Node)) →
    List Char → Reading (List Node × List Char)
  | 0, _, _, _, _ => Reading.refuse
  | size + 1, whole, skipping, done, cs => do
    let (branch, rest) ← readBranch size (whole && done.isEmpty) skipping [] cs
    match rest with
    | '|' :: rest => do
      -- Flags at the start of the whole expression are known only once its first branch is read.
      let flags := (← get).flags
      let skipping := if whole then flags.contains .verbose else skipping
      readAlternatives size whole skipping (branch :: done) rest
    | _ => return (Node.choice (branch :: done).reverse, rest)
termination_by structural size => size

/-- One alternative, of which some terms have been read, given from the last to the first, and what
follows it.  The first alternative of the whole expression may begin with flags. -/
def readBranch : (size : Nat) → (leading skipping : Bool) → (done : List Term) → List Char →
    Reading (List Node × List Char)
  | 0, _, _, _, _ => Reading.refuse
  | size + 1, leading, skipping, done, cs =>
    match cs with
    | [] => return (done.reverse.flatMap Term.nodes, [])
    | '|' :: _ => return (done.reverse.flatMap Term.nodes, cs)
    | ')' :: _ => return (done.reverse.flatMap Term.nodes, cs)
    | '(' :: rest => do
      let (opening, rest) ← readOpening rest
      match opening with
      | .comment => readBranch size leading skipping done rest
      | .flags added => do
        if !leading || !done.isEmpty then Reading.refuse
        let flags ← Reading.addFlags added
        readBranch size leading (flags.contains .verbose) done rest
      | .whole node => readBranch size leading skipping (.ofNode node :: done) rest
      | .given index => do
        let (yes, rest) ← readBranch size false skipping [] rest
        let (no, rest) ← match rest with
          | '|' :: rest => readBranch size false skipping [] rest
          | _ => pure ([], rest)
        let node := Node.given index (.ofList yes) (.ofList no)
        readBranch size leading skipping (.ofNode node :: done) (← afterBracket rest)
      | .body kind => do
        let (term, rest) ← enclose kind do
          let (nodes, rest) ← readAlternatives size false (kind.skips skipping) [] rest
          return (nodes, ← afterBracket rest)
        readBranch size leading skipping (term :: done) rest
    | c :: rest =>
      if skipping && isSkipped c then readBranch size leading skipping done rest
      else if skipping && c == '#' then do
        readBranch size leading skipping done (← Reading.require (skipLine? rest))
      else match readCount? cs with
        | some (count, rest) => do
          let (done, rest) ← repeatLast count done rest
          readBranch size leading skipping done rest
        | none => do
          let (node, rest) ← readAtom cs
          readBranch size leading skipping (.ofNode node :: done) rest
termination_by structural size => size

end

/-- The pattern that a text writes, when some flags are given. -/
def read (flags : List Flag) (s : String) : Except PatternFault Pattern :=
  let reading := readAlternatives (2 * s.length + 2) true (flags.contains .verbose) [] s.toList
  match reading (.start flags) with
  | .error fault => .error fault
  | .ok ((nodes, rest), notes) =>
    match notes.fault? rest.isEmpty with
    | some fault => .error fault
    | none => .ok (.ofNode (.ofFlags notes.flags) notes.groups.length
        (notes.widthOf (.ofList nodes)).least (.ofList nodes))

end Criteria.Regex
