import Criteria.Regex.Syntax
import Criteria.Text.Digit

/-!
# Escapes and classes

What a backslash stands for together with the characters after it, and the members of a class.  A
letter after a backslash must have a meaning.  A number is a character in octal digits or a
reference to a group: it is a character when it begins with a zero, stands in a class or has three
octal digits.  A closing bracket at the front of a class is a member of it.
-/

namespace Criteria.Regex

/-- What a backslash and the characters after it stand for. -/
inductive Escape where
  | char (code : Nat)
  | category (kind : Category) (negated : Bool)
  | anchor (a : Anchor)
  | back (index : Nat)

/-- The category of a letter. -/
def category? : Char → Option (Category × Bool)
  | 'd' => some (.digit, false)
  | 'D' => some (.digit, true)
  | 's' => some (.blank, false)
  | 'S' => some (.blank, true)
  | 'w' => some (.word, false)
  | 'W' => some (.word, true)
  | _ => none

/-- The anchor of a letter. -/
def anchor? : Char → Option Anchor
  | 'A' => some .start
  | 'Z' => some .finish
  | 'b' => some .boundary
  | 'B' => some .noBoundary
  | _ => none

/-- The control character of a letter. -/
def control? : Char → Option Char
  | 'a' => some '\x07'
  | 'f' => some '\x0c'
  | 'n' => some '\n'
  | 'r' => some '\r'
  | 't' => some '\t'
  | 'v' => some '\x0b'
  | _ => none

/-- Code points are below this bound. -/
def codeBound : Nat := 0x110000

/-- A code point written by exactly `width` hexadecimal digits, and what follows them. -/
def readHex? (width : Nat) (cs : List Char) : Option (Escape × List Char) :=
  let values := (cs.take width).filterMap Text.hexDigit?
  let code := Text.ofDigits 16 values
  if values.length = width ∧ code < codeBound then some (.char code, cs.drop width) else none

/-- The value of an octal digit. -/
def octalDigit? (c : Char) : Option Nat :=
  if '0' ≤ c ∧ c ≤ '7' then some (c.toNat - '0'.toNat) else none

/-- The octal digits at the front of a text, at most `width` of them. -/
def octalStart (width : Nat) (cs : List Char) : List Nat :=
  ((cs.take width).takeWhile fun c ↦ (octalDigit? c).isSome).filterMap octalDigit?

/-- A character written by up to three octal digits, and what follows them. -/
def readOctal? (cs : List Char) : Option (Escape × List Char) :=
  let values := octalStart 3 cs
  let code := Text.ofDigits 8 values
  if values.isEmpty ∨ 0o377 < code then none else some (.char code, cs.drop values.length)

/-- A reference to a group by one or two decimal digits, and what follows them. -/
def readBack? : List Char → Option (Escape × List Char)
  | [] => none
  | c :: rest =>
    match Text.asciiDigit? c, rest.head?.bind Text.asciiDigit? with
    | some tens, some ones => some (.back (10 * tens + ones), rest.drop 1)
    | some index, none => some (.back index, rest)
    | none, _ => none

/-- What a number after a backslash stands for, and what follows it. -/
def readNumber? (inClass : Bool) (cs : List Char) : Option (Escape × List Char) :=
  let values := octalStart 3 cs
  if inClass ∨ values.head? = some 0 ∨ values.length = 3 then readOctal? cs else readBack? cs

/-- What a backslash stands for together with the characters after it, and what follows these. -/
def readEscape? (inClass : Bool) : List Char → Option (Escape × List Char)
  | [] => none
  | c :: rest =>
    match category? c with
    | some (kind, negated) => some (.category kind negated, rest)
    | none =>
      if inClass && c == 'b' then some (.char 8, rest)
      else match (if inClass then none else anchor? c), control? c with
        | some a, _ => some (.anchor a, rest)
        | none, some d => some (.char d.toNat, rest)
        | none, none =>
          if c = 'x' then readHex? 2 rest
          else if c = 'u' then readHex? 4 rest
          else if c = 'U' then readHex? 8 rest
          else if (Text.asciiDigit? c).isSome then readNumber? inClass (c :: rest)
          else if c.isAlpha then none
          else some (.char c.toNat, rest)

/-- One member of a class before a range is looked for, and what follows it. -/
def readMember? : List Char → Option (ClassItem × List Char)
  | [] => none
  | '\\' :: rest =>
    match readEscape? true rest with
    | some (.char code, rest) => some (.char code, rest)
    | some (.category kind negated, rest) => some (.category kind negated, rest)
    | _ => none
  | c :: rest => some (.char c.toNat, rest)

/-- The members of a class up to the bracket that closes it, and what follows the bracket.  The
bracket is itself a member when it comes first. -/
def readMembers? : (size : Nat) → (first : Bool) → List Char →
    Option (List ClassItem × List Char)
  | 0, _, _ => none
  | size + 1, first, cs =>
    match first, cs with
    | false, ']' :: rest => some ([], rest)
    | _, cs =>
      match readMember? cs with
      | none => none
      | some (item, '-' :: ']' :: rest) => some ([item, .char '-'.toNat], rest)
      | some (item, '-' :: rest) =>
        match item, readMember? rest with
        | .char low, some (.char high, rest) =>
          if high < low then none
          else (readMembers? size false rest).map fun (items, rest) ↦
            (.range low high :: items, rest)
        | _, _ => none
      | some (item, rest) =>
        (readMembers? size false rest).map fun (items, rest) ↦ (item :: items, rest)

/-- The class of some members, each of them once.  A class of one character is that character. -/
def classOf (negated : Bool) (items : List ClassItem) : Single :=
  match negated, items.eraseDups with
  | false, [.char code] => .char code
  | _, items => .set negated items

/-- A class after its opening bracket, and what follows it. -/
def readClass? (cs : List Char) : Option (Single × List Char) :=
  match cs with
  | '^' :: rest =>
    (readMembers? (rest.length + 1) true rest).map fun (items, rest) ↦ (classOf true items, rest)
  | rest =>
    (readMembers? (rest.length + 1) true rest).map fun (items, rest) ↦ (classOf false items, rest)

end Criteria.Regex
