/-!
# Regular expressions

The expressions that a text is searched for: single characters and classes of them, anchors,
sequences, alternatives, groups, repeats, looks around a place, back references and conditions.
Characters are kept as code points, since an expression may name one that no text holds.
-/

namespace Criteria.Regex

/-- A switch that is set inside an expression. -/
inductive Flag where
  | ignoreCase
  | multiline
  | dotAll
  /-- Blanks and comments are no part of the expression. -/
  | verbose
  | ascii
  | unicode
  /-- Nothing may be repeated. -/
  | noRepeats
  deriving DecidableEq

namespace Flag

def ofLetter? : Char → Option Flag
  | 'i' => some ignoreCase
  | 'm' => some multiline
  | 's' => some dotAll
  | 'x' => some verbose
  | 'a' => some ascii
  | 'u' => some unicode
  | 't' => some noRepeats
  | _ => none

end Flag

/-- How the characters of a text are looked at. -/
structure Mode where
  ignoreCase : Bool
  /-- Letters, digits and blanks are those of ASCII only. -/
  ascii : Bool
  /-- Every line of the text begins and ends. -/
  multiline : Bool
  /-- The dot stands for a line break, too. -/
  dotAll : Bool

namespace Mode

def ofFlags (flags : List Flag) : Mode where
  ignoreCase := flags.contains .ignoreCase
  ascii := flags.contains .ascii
  multiline := flags.contains .multiline
  dotAll := flags.contains .dotAll

/-- The mode inside a scope that adds some flags and removes others. -/
def change (added removed : List Flag) (m : Mode) : Mode :=
  let switch (before : Bool) (flag : Flag) : Bool :=
    (before || added.contains flag) && !removed.contains flag
  { ignoreCase := switch m.ignoreCase .ignoreCase
    ascii := added.contains .ascii || (m.ascii && !added.contains .unicode)
    multiline := switch m.multiline .multiline
    dotAll := switch m.dotAll .dotAll }

end Mode

/-- The named kinds of character. -/
inductive Category where
  | digit | word | blank
  deriving DecidableEq

/-- A member of a character class. -/
inductive ClassItem where
  | char (code : Nat)
  | range (first last : Nat)
  | category (kind : Category) (negated : Bool)
  deriving DecidableEq

/-- What stands for exactly one character. -/
inductive Single where
  | char (code : Nat)
  | any
  | set (negated : Bool) (items : List ClassItem)
  deriving DecidableEq

/-- A condition on a place in the text. -/
inductive Anchor where
  /-- The start of the text. -/
  | start
  /-- The start of the text, or of a line. -/
  | lineStart
  /-- The end of the text or the place before a line break that ends it, or the end of a line. -/
  | lineEnd
  /-- The end of the text. -/
  | finish
  /-- Between a word character and one that is none. -/
  | boundary
  /-- Any other place in a text that is not empty. -/
  | noBoundary
  deriving DecidableEq

/-- Which turns a repeat prefers.  A possessive one never gives back what it has taken. -/
inductive Manner where
  | greedy | lazy | possessive
  deriving DecidableEq

/-- Where a look around goes: on from its place, or over the characters just before it. -/
inductive Direction where
  | ahead
  | behind (width : Nat)
  deriving DecidableEq

/-- A regular expression. -/
inductive Node where
  | empty
  | single (s : Single)
  | anchor (a : Anchor)
  | seq (first second : Node)
  | alt (first second : Node)
  /-- A group whose text can be referred to. -/
  | group (index : Nat) (body : Node)
  | inScope (added removed : List Flag) (body : Node)
  /-- Only the first way in which the body matches counts. -/
  | atomic (body : Node)
  | look (direction : Direction) (negated : Bool) (body : Node)
  /-- The text of a group once more. -/
  | back (index : Nat)
  /-- One of two expressions, by whether a group has a text. -/
  | given (index : Nat) (yes no : Node)
  | times (manner : Manner) (least : Nat) (most : Option Nat) (body : Node)

namespace Node

/-- Expressions in a row. -/
def ofList : List Node → Node
  | [] => empty
  | [node] => node
  | node :: rest => seq node (ofList rest)

/-- Alternatives, of which there is at least one. -/
def ofBranches : List Node → Node
  | [] => empty
  | [node] => node
  | node :: rest => alt node (ofBranches rest)

end Node

end Criteria.Regex
