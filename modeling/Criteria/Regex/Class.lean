import Criteria.Regex.Syntax
import Criteria.Text.Blank
import Criteria.Text.Capital
import Criteria.Text.Digit
import Criteria.Text.Word

/-!
# Which characters an expression stands for

Whether a character is of a category, a member of a class, or the one that an expression asks for,
in each mode.  When case is ignored a character may be replaced by another form of the same letter;
in ASCII mode only the letters of ASCII have another form.
-/

namespace Criteria.Regex

/-- The code points up to here are in the first plane. -/
def planeEnd : Nat := 0xffff

/-- Whether a character is of a category. -/
def Category.holds (ascii : Bool) : Category → Char → Bool
  | digit, c => if ascii then c.isDigit else Text.isDigit c
  | word, c => if ascii then c.isAlphanum || c == '_' else Text.isWord c
  | blank, c =>
    if ascii then [' ', '\t', '\n', '\r', '\x0b', '\x0c'].contains c else Text.isBlank c

/-- The lower-case form of a code point when only letters of ASCII have one. -/
def asciiLower (n : Nat) : Nat := if 'A'.toNat ≤ n ∧ n ≤ 'Z'.toNat then n + 32 else n

namespace Mode

/-- The lower-case form of a code point. -/
def lower (m : Mode) (n : Nat) : Nat := if m.ascii then asciiLower n else Text.lowerCode n

/-- Whether a code point stands for another one. -/
def same (m : Mode) (d n : Nat) : Bool :=
  if !m.ignoreCase then d == n
  else if m.ascii then asciiLower d == asciiLower n
  else Text.sameLetterCode d n

/-- The code points that are the same letter as a given one. -/
def variants (m : Mode) (n : Nat) : List Nat :=
  if !m.ascii then Text.variantCodes n
  else if 'a'.toNat ≤ asciiLower n ∧ asciiLower n ≤ 'z'.toNat then
    [asciiLower n, asciiLower n - 32]
  else [n]

/-- Whether a code point has forms of either case. -/
def isCased (m : Mode) (n : Nat) : Bool :=
  if m.ascii then 'a'.toNat ≤ asciiLower n && asciiLower n ≤ 'z'.toNat
  else Text.lowerCode n != n || Text.capitalCode n != n

/-- Whether one form of a letter lies in a range.  Of a range that goes beyond the first plane, the
lower-case form and what its capital begins with are asked for besides. -/
def inRange (m : Mode) (first last n : Nat) : Bool :=
  let within (v : Nat) : Bool := first ≤ v && v ≤ last
  ((m.variants n).any fun v ↦ v ≤ planeEnd && within v) ||
    (planeEnd < last && (within (m.lower n) || within (Text.capitalCode (m.lower n))))

end Mode

/-- Whether a character is a member of a class.  A member beyond the first plane stands for itself
alone, and what is asked for is the lower-case form of the character. -/
def ClassItem.holds (m : Mode) : ClassItem → Char → Bool
  | char d, c =>
    if m.ignoreCase && planeEnd < d then m.lower c.toNat == d else m.same d c.toNat
  | range first last, c =>
    if m.ignoreCase then m.inRange first last c.toNat
    else first ≤ c.toNat && c.toNat ≤ last
  | category kind negated, c => kind.holds m.ascii c != negated

/-- Whether a member of a class holds other characters when case is ignored. -/
def ClassItem.isCased (m : Mode) : ClassItem → Bool
  | char d => planeEnd < d || m.isCased d
  | range first last =>
    planeEnd < last || (List.range' first (last + 1 - first)).any m.isCased
  | category _ _ => false

/-- Whether a character is in a class.  A class of a single character is that character. -/
def inClass (m : Mode) (negated : Bool) (items : List ClassItem) (c : Char) : Bool :=
  (match items with
    | [.char d] => m.same d c.toNat
    | items => items.any fun item ↦ item.holds m c) != negated

/-- Whether a character is one that an expression stands for. -/
def Single.holds (m : Mode) : Single → Char → Bool
  | char d, c => m.same d c.toNat
  | any, c => m.dotAll || c != '\n'
  | set negated items, c => inClass m negated items c

end Criteria.Regex
