import Criteria.Text.Digit
import Criteria.Text.Encoding
import Criteria.Value.Entries

/-!
# Reading JSON

A document is read into a value.  Besides the standard grammar the words `NaN`, `Infinity` and
`-Infinity` are numbers.  A number with a point or an exponent is binary, any other is whole and
may have up to 4300 digits.  Control characters must be escaped in texts, and of two members with
one name the later value counts.  A text holds characters alone, so a surrogate must stand in a
pair, and a document with half of one is not read.  The word `NaN` stands for one object, wherever
it is read.
-/

namespace Criteria.Json

/-- Whether a character may stand between the signs of a document. -/
def isSpace (c : Char) : Bool := c = ' ' || c = '\t' || c = '\n' || c = '\r'

/-- A text from its first sign on. -/
def skipSpace (cs : List Char) : List Char := cs.dropWhile isSpace

def shortEscape? : Char → Option Char
  | '"' => some '"'
  | '\\' => some '\\'
  | '/' => some '/'
  | 'b' => some '\x08'
  | 'f' => some '\x0c'
  | 'n' => some '\n'
  | 'r' => some '\r'
  | 't' => some '\t'
  | _ => none

/-- Four hexadecimal digits at the front of a text, and what follows them. -/
def readUnit? (cs : List Char) : Option (Nat × List Char) :=
  let values := (cs.take 4).filterMap Text.hexDigit?
  if values.length = 4 then some (Text.ofDigits 16 values, cs.drop 4) else none

/-- The character that an escape by code point writes, after its `u`, and what follows it. -/
def readCode? (cs : List Char) : Option (Char × List Char) :=
  match readUnit? cs with
  | none => none
  | some (unit, rest) =>
    if Text.Encoding.isHigh unit then
      match rest with
      | '\\' :: 'u' :: rest =>
        match readUnit? rest with
        | some (low, rest) =>
          if Text.Encoding.isLow low then
            (Text.Encoding.charOf? (Text.Encoding.pairCode unit low)).map (·, rest)
          else none
        | none => none
      | _ => none
    else (Text.Encoding.charOf? unit).map (·, rest)

/-- The characters of a text up to the quote that ends it, and what follows the quote. -/
def readText? : (size : Nat) → List Char → Option (List Char × List Char)
  | 0, _ => none
  | _ + 1, [] => none
  | _ + 1, '"' :: rest => some ([], rest)
  | size + 1, '\\' :: 'u' :: rest =>
    match readCode? rest with
    | some (c, rest) => (readText? size rest).map fun (cs, rest) ↦ (c :: cs, rest)
    | none => none
  | size + 1, '\\' :: c :: rest =>
    match shortEscape? c with
    | some c => (readText? size rest).map fun (cs, rest) ↦ (c :: cs, rest)
    | none => none
  | size + 1, c :: rest =>
    if c < ' ' ∨ c = '\\' then none
    else (readText? size rest).map fun (cs, rest) ↦ (c :: cs, rest)

/-- The digits before the point of a number: one zero, or digits that begin with no zero. -/
def spanWhole : List Char → List Nat × List Char
  | '0' :: rest => ([0], rest)
  | cs => Number.Exact.spanDigits cs

/-- The digits after the point, if a point and a digit are there. -/
def spanFraction : List Char → Option (List Nat) × List Char
  | '.' :: rest =>
    match Number.Exact.spanDigits rest with
    | ([], _) => (none, '.' :: rest)
    | (ds, after) => (some ds, after)
  | cs => (none, cs)

/-- The exponent of a number, if a mark and a digit are there. -/
def spanExponent : List Char → Option Int × List Char
  | c :: rest =>
    if c = 'e' ∨ c = 'E' then
      let (negative, digits) := Number.Exact.readSign rest
      match Number.Exact.spanDigits digits with
      | ([], _) => (none, c :: rest)
      | (ds, after) =>
        let n : Int := Text.ofDigits 10 ds
        (some (if negative then -n else n), after)
    else (none, c :: rest)
  | [] => (none, [])

/-- A number without its sign, and what follows it. -/
def readNumber? (negative : Bool) (cs : List Char) : Option (Value × List Char) :=
  match spanWhole cs with
  | ([], _) => none
  | (whole, rest) =>
    let (fraction, rest) := spanFraction rest
    let (exponent, rest) := spanExponent rest
    if fraction.isNone && exponent.isNone then
      if Text.digitLimit < whole.length then none
      else
        let n : Int := Text.ofDigits 10 whole
        some (.int (if negative then -n else n), rest)
    else
      let places := fraction.getD []
      let quantity : Number.Exact :=
        ⟨negative, Text.ofDigits 10 (whole ++ places), exponent.getD 0 - places.length⟩
      some (.float (Number.Double.ofExact quantity), rest)

/-- What follows a word at the front of a text. -/
def skipWord? : List Char → List Char → Option (List Char)
  | [], cs => some cs
  | w :: ws, c :: cs => if w = c then skipWord? ws cs else none
  | _ :: _, [] => none

/-- The tag of what the word `NaN` stands for. -/
def nanTag : Nat := 0

/-- A word or a number at the front of a text, and what follows it. -/
def readScalar? (cs : List Char) : Option (Value × List Char) :=
  let word (w : String) (v : Value) := (skipWord? w.toList cs).map (v, ·)
  match cs with
  | 'n' :: _ => word "null" .null
  | 't' :: _ => word "true" (.bool true)
  | 'f' :: _ => word "false" (.bool false)
  | 'N' :: _ => word "NaN" (.float (.nan nanTag))
  | 'I' :: _ => word "Infinity" (.float (.infinite false))
  | '-' :: 'I' :: _ => word "-Infinity" (.float (.infinite true))
  | '-' :: rest => readNumber? true rest
  | cs => readNumber? false cs

mutual

/-- A value at the front of a text, and what follows it. -/
def readValue? : (size : Nat) → List Char → Option (Value × List Char)
  | 0, _ => none
  | size + 1, '"' :: rest =>
    (readText? (size + 1) rest).map fun (cs, rest) ↦ (.text (String.ofList cs), rest)
  | size + 1, '[' :: rest =>
    match skipSpace rest with
    | ']' :: rest => some (.list [], rest)
    | rest => (readItems? size rest).map fun (items, rest) ↦ (.list items, rest)
  | size + 1, '\x7b' :: rest =>
    match skipSpace rest with
    | '\x7d' :: rest => some (.dict [], rest)
    | rest => (readMembers? size rest).map fun (entries, rest) ↦ (.ofEntries entries, rest)
  | _ + 1, cs => readScalar? cs

/-- The items of a list from the first one on, and what follows the bracket that ends it. -/
def readItems? : (size : Nat) → List Char → Option (List Value × List Char)
  | 0, _ => none
  | size + 1, cs =>
    match readValue? size cs with
    | none => none
    | some (item, rest) =>
      match skipSpace rest with
      | ']' :: rest => some ([item], rest)
      | ',' :: rest =>
        (readItems? size (skipSpace rest)).map fun (items, rest) ↦ (item :: items, rest)
      | _ => none

/-- The members of an object from the first one on, and what follows the brace that ends it. -/
def readMembers? : (size : Nat) → List Char → Option (List (Value × Value) × List Char)
  | size + 1, '"' :: rest =>
    match readText? (size + 1) rest with
    | none => none
    | some (name, rest) =>
      match skipSpace rest with
      | ':' :: rest =>
        match readValue? size (skipSpace rest) with
        | none => none
        | some (value, rest) =>
          let entry := (Value.text (String.ofList name), value)
          match skipSpace rest with
          | '\x7d' :: rest => some ([entry], rest)
          | ',' :: rest =>
            (readMembers? size (skipSpace rest)).map fun (entries, rest) ↦
              (entry :: entries, rest)
          | _ => none
      | _ => none
  | _, _ => none

end

/-- The value of a document. -/
def read? (cs : List Char) : Option Value :=
  match readValue? (2 * cs.length + 2) (skipSpace cs) with
  | some (v, rest) => if (skipSpace rest).isEmpty then some v else none
  | none => none

/-- A text or bytes that hold a document, as the document's value; any other value as it is. -/
def decoded : Value → Value
  | .text s => (read? s.toList).getD (.text s)
  | .bytes bs => ((Text.ofBytes? bs).bind read?).getD (.bytes bs)
  | v => v

end Criteria.Json
