import Criteria.Text.Letter

/-!
# Patterns with wildcards

In a pattern `%` stands for any run of characters, `_` for any one character, and every other
character for itself.  A pattern is matched against a whole text, except that the text may end in
one line break more.  The same pattern can be written as a regular expression.
-/

namespace Criteria.Like

/-- A text and what remains of it after each of its characters. -/
def suffixes : List Char → List (List Char)
  | [] => [[]]
  | c :: cs => (c :: cs) :: suffixes cs

/-- Whether a pattern covers a text from the first character to the last.  Characters are compared
by `same`. -/
def covers (same : Char → Char → Bool) : List Char → List Char → Bool
  | [], text => text.isEmpty
  | c :: pattern, text =>
    if c = '%' then (suffixes text).any (covers same pattern)
    else match text with
      | [] => false
      | d :: rest => (c = '_' || same c d) && covers same pattern rest

/-- A text without the line break that ends it, if one does. -/
def withoutFinalBreak? (text : List Char) : Option (List Char) :=
  if text.getLast? = some '\n' then some text.dropLast else none

/-- Whether a text matches a pattern. -/
def matchesBy (same : Char → Char → Bool) (pattern text : List Char) : Bool :=
  covers same pattern text ||
    ((withoutFinalBreak? text).map (covers same pattern)).getD false

/-- Whether a text matches a pattern character for character. -/
def matchesExactly (pattern text : String) : Bool :=
  matchesBy (· == ·) pattern.toList text.toList

/-- Whether a text matches a pattern when case is ignored. -/
def matchesLetters (pattern text : String) : Bool :=
  matchesBy Text.sameLetter pattern.toList text.toList

/-- The characters that are escaped in a regular expression. -/
def special : List Char :=
  ['\t', '\n', '\x0b', '\x0c', '\r', ' ', '#', '$', '&', '(', ')', '*', '+', '-', '.', '?', '[',
   '\\', ']', '^', '\x7b', '|', '\x7d', '~']

/-- One character of a pattern as a regular expression. -/
def regexChars (c : Char) : List Char :=
  if c = '%' then ['.', '*']
  else if c = '_' then ['.']
  else if special.contains c then ['\\', c]
  else [c]

/-- A pattern as a regular expression that is anchored at both ends. -/
def regexText (pattern : String) : String :=
  String.ofList ('^' :: (pattern.toList.flatMap regexChars ++ ['$']))

end Criteria.Like
