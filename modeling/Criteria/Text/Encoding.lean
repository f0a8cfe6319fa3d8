/-!
# Encodings of text

Bytes are read as text in one of the five Unicode encoding schemes.  A byte order mark at the front
tells the scheme; without one the zeros among the first four bytes do, since a text that begins with
two ASCII characters has its zeros in a different place in every scheme.
-/

namespace Criteria.Text

/-- The encoding schemes. -/
inductive Encoding where
  | utf8
  | utf16 (bigEndian : Bool)
  | utf32 (bigEndian : Bool)
  deriving DecidableEq

namespace Encoding

/-- The scheme of bytes without a byte order mark. -/
def ofZeros : List UInt8 → Encoding
  | a :: b :: c :: d :: _ =>
    if a = 0 then (if b = 0 then utf32 true else utf16 true)
    else if b = 0 then (if c = 0 ∧ d = 0 then utf32 false else utf16 false)
    else utf8
  | [a, b] => if a = 0 then utf16 true else if b = 0 then utf16 false else utf8
  | _ => utf8

/-- The scheme of bytes, and the bytes after a byte order mark. -/
def detect : List UInt8 → Encoding × List UInt8
  | 0x00 :: 0x00 :: 0xfe :: 0xff :: rest => (utf32 true, rest)
  | 0xff :: 0xfe :: 0x00 :: 0x00 :: rest => (utf32 false, rest)
  | 0xfe :: 0xff :: rest => (utf16 true, rest)
  | 0xff :: 0xfe :: rest => (utf16 false, rest)
  | 0xef :: 0xbb :: 0xbf :: rest => (utf8, rest)
  | bytes => (ofZeros bytes, bytes)

/-- The character of a code point, unless it is a surrogate or beyond the last one. -/
def charOf? (n : Nat) : Option Char :=
  if n.isValidChar then some (Char.ofNat n) else none

/-- The code point of a pair of surrogates. -/
def pairCode (high low : Nat) : Nat := 0x10000 + (high - 0xd800) * 0x400 + (low - 0xdc00)

/-- Whether a unit begins a pair of surrogates. -/
def isHigh (unit : Nat) : Bool := 0xd800 ≤ unit && unit < 0xdc00

/-- Whether a unit ends a pair of surrogates. -/
def isLow (unit : Nat) : Bool := 0xdc00 ≤ unit && unit < 0xe000

/-- Units of 16 bits as characters. -/
def ofUnits? : List Nat → Option (List Char)
  | [] => some []
  | [unit] => (charOf? unit).map ([·])
  | high :: low :: rest =>
    if isHigh high && isLow low then do
      let c ← charOf? (pairCode high low)
      return c :: (← ofUnits? rest)
    else do
      let c ← charOf? high
      return c :: (← ofUnits? (low :: rest))

/-- The number that bytes write, the leading ones first. -/
def ofBigEndian (bytes : List UInt8) : Nat := bytes.foldl (fun n b ↦ n * 256 + b.toNat) 0

/-- The number that bytes write in a given order. -/
def number (bigEndian : Bool) (bytes : List UInt8) : Nat :=
  ofBigEndian (if bigEndian then bytes else bytes.reverse)

/-- Bytes in pairs, as numbers. -/
def pairs? (bigEndian : Bool) : List UInt8 → Option (List Nat)
  | [] => some []
  | a :: b :: rest => (pairs? bigEndian rest).map (number bigEndian [a, b] :: ·)
  | [_] => none

/-- Bytes in fours, as numbers. -/
def fours? (bigEndian : Bool) : List UInt8 → Option (List Nat)
  | [] => some []
  | a :: b :: c :: d :: rest => (fours? bigEndian rest).map (number bigEndian [a, b, c, d] :: ·)
  | _ => none

/-- The text that bytes write in a scheme. -/
def decode? : Encoding → List UInt8 → Option (List Char)
  | utf8, bytes => (String.fromUTF8? ⟨bytes.toArray⟩).map String.toList
  | utf16 bigEndian, bytes => (pairs? bigEndian bytes).bind ofUnits?
  | utf32 bigEndian, bytes => (fours? bigEndian bytes).bind (·.mapM charOf?)

end Encoding

/-- The text that bytes write, in the scheme that they show. -/
def ofBytes? (bytes : List UInt8) : Option (List Char) :=
  let (encoding, rest) := Encoding.detect bytes
  encoding.decode? rest

end Criteria.Text
