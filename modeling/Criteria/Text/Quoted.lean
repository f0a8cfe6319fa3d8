import Criteria.Text.Printable
import Criteria.Text.Digit

/-!
# Quoted texts

A text is quoted with single quotes, unless it holds a single quote and no double quote.  The
backslash, the quote in use, the line breaks and the tab have short escapes; any other character
that is not to be shown as itself is written by its code point.
-/

namespace Criteria.Text

namespace Quoted

/-- The quotation mark for a text. -/
def mark (cs : List Char) : Char :=
  if cs.contains '\'' && !cs.contains '"' then '"' else '\''

/-- A code point in hexadecimal, in the narrowest of the three escapes that holds it. -/
def escapeCode (n : Nat) : List Char :=
  if n < 0x100 then '\\' :: 'x' :: hexDigits 2 n
  else if n < 0x10000 then '\\' :: 'u' :: hexDigits 4 n
  else '\\' :: 'U' :: hexDigits 8 n

/-- One character inside quotes. -/
def escape (shown : Char → Bool) (mark c : Char) : List Char :=
  if c = mark ∨ c = '\\' then ['\\', c]
  else if c = '\n' then ['\\', 'n']
  else if c = '\r' then ['\\', 'r']
  else if c = '\t' then ['\\', 't']
  else if shown c then [c]
  else escapeCode c.toNat

/-- A text in quotes, where `shown` says which characters stand for themselves. -/
def encode (shown : Char → Bool) (cs : List Char) : List Char :=
  mark cs :: (cs.flatMap (escape shown (mark cs)) ++ [mark cs])

end Quoted

/-- Whether a character is a printable ASCII character. -/
def isPlainAscii (c : Char) : Bool := ' ' ≤ c && c ≤ '~'

def quoted (s : String) : String := String.ofList (Quoted.encode isPrintable s.toList)

/-- A text in quotes, written in ASCII alone. -/
def quotedAscii (s : String) : String := String.ofList (Quoted.encode isPlainAscii s.toList)

/-- Bytes in quotes, each byte as the character of its number. -/
def quotedBytes (bs : List UInt8) : String :=
  String.ofList ('b' :: Quoted.encode isPlainAscii (bs.map fun b ↦ Char.ofNat b.toNat))

end Criteria.Text
