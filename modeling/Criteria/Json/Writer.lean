import Criteria.Number.Shortest
import Criteria.Text.Digit
import Criteria.Value.Basic

/-!
# Writing JSON

A value is written as a JSON document in ASCII, with a blank after every comma and every colon.
Tuples are written as lists.  Keys may be texts, numbers, truth values and the missing value, all
written as texts; two keys may then become the same.  What has no JSON form is not written: numbers
that are not finite, whole numbers of too many digits, decimals, dates, bytes, sets and objects.
-/

namespace Criteria.Json

/-- A unit of 16 bits as an escape. -/
def unitEscape (unit : Nat) : List Char := '\\' :: 'u' :: Text.hexDigits 4 unit

/-- A character of a text. -/
def charChars (c : Char) : List Char :=
  if c = '"' ∨ c = '\\' then ['\\', c]
  else if c = '\n' then ['\\', 'n']
  else if c = '\r' then ['\\', 'r']
  else if c = '\t' then ['\\', 't']
  else if c = '\x08' then ['\\', 'b']
  else if c = '\x0c' then ['\\', 'f']
  else if ' ' ≤ c ∧ c ≤ '~' then [c]
  else if c.toNat < 0x10000 then unitEscape c.toNat
  else
    unitEscape (0xd800 + (c.toNat - 0x10000) / 0x400)
      ++ unitEscape (0xdc00 + (c.toNat - 0x10000) % 0x400)

def textChars (cs : List Char) : List Char := '"' :: (cs.flatMap charChars ++ ['"'])

def boolChars (b : Bool) : List Char := if b then "true".toList else "false".toList

def intChars (n : Int) : List Char :=
  if n < 0 then '-' :: Number.digits n.natAbs else Number.digits n.natAbs

def intChars? (n : Int) : Option (List Char) :=
  if Number.hasNumeral n then some (intChars n) else none

def floatChars? : Number.Double → Option (List Char)
  | .finite negative mantissa exponent =>
    some (Number.Double.finite negative mantissa exponent).text.toList
  | _ => none

/-- A key, as the characters of the text that is written for it. -/
def keyChars? : Value → Option (List Char)
  | .text s => some s.toList
  | .int n => intChars? n
  | .float x => floatChars? x
  | .bool b => some (boolChars b)
  | .null => some "null".toList
  | _ => none

/-- Parts with a comma and a blank between them. -/
def commaSeparated : List (List Char) → List Char
  | [] => []
  | [part] => part
  | part :: rest => part ++ ',' :: ' ' :: commaSeparated rest

mutual

/-- The document of a value. -/
def chars? : Value → Option (List Char)
  | .null => some "null".toList
  | .bool b => some (boolChars b)
  | .int n => intChars? n
  | .float x => floatChars? x
  | .text s => some (textChars s.toList)
  | .list items => (itemChars? items).map fun parts ↦ '[' :: (commaSeparated parts ++ [']'])
  | .tuple items => (itemChars? items).map fun parts ↦ '[' :: (commaSeparated parts ++ [']'])
  | .dict entries =>
    (entryChars? entries).map fun parts ↦ '\x7b' :: (commaSeparated parts ++ ['\x7d'])
  | _ => none
termination_by structural v => v

/-- The documents of the items of a list. -/
def itemChars? : List Value → Option (List (List Char))
  | [] => some []
  | v :: rest =>
    match chars? v, itemChars? rest with
    | some part, some parts => some (part :: parts)
    | _, _ => none
termination_by structural v => v

/-- The entries of a dictionary, each with its key. -/
def entryChars? : List (Value × Value) → Option (List (List Char))
  | [] => some []
  | (k, v) :: rest =>
    match keyChars? k, chars? v, entryChars? rest with
    | some key, some part, some parts => some ((textChars key ++ ':' :: ' ' :: part) :: parts)
    | _, _, _ => none
termination_by structural v => v

end

/-- The document of a value as a text. -/
def write? (v : Value) : Option String := (chars? v).map String.ofList

end Criteria.Json
