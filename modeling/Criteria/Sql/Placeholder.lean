import Criteria.Text.Blank
import Criteria.Text.Word

/-!
# Placeholders

A query names its parameters by placeholders.  In a fragment `:name` stands for one value and
`:...name` for a list that is spread out, whether or not it has brackets of its own around it.  In
a statement there is only `:name`, and a backslash in front of a colon says that the colon begins no
placeholder.
-/

namespace Criteria.Sql

/-- A sign of a fragment: a character, or the placeholder of a list. -/
inductive Sign where
  | char (c : Char)
  | spread (name : List Char)

namespace Sign

/-- The sign as it stands in a statement. -/
def chars : Sign → List Char
  | char c => [c]
  | spread name => ':' :: name

/-- The name in the placeholder of a list. -/
def spreadName? : Sign → Option String
  | char _ => none
  | spread name => some (String.ofList name)

end Sign

/-- The name in the placeholder of a list that characters begin with, and how many characters the
placeholder has. -/
def spreadAt? : List Char → Option (List Char × Nat)
  | ':' :: '.' :: '.' :: '.' :: rest =>
    let name := rest.takeWhile Text.isWord
    if name.isEmpty then none else some (name, 4 + name.length)
  | _ => none

/-- The same for a placeholder in brackets, which may have blanks inside. -/
def bracketedAt? : List Char → Option (List Char × Nat)
  | '(' :: rest =>
    let inner := rest.dropWhile Text.isBlank
    match spreadAt? inner with
    | none => none
    | some (name, length) =>
      match (inner.drop length).dropWhile Text.isBlank with
      | ')' :: after => some (name, 1 + rest.length - after.length)
      | _ => none
  | _ => none

/-- The placeholder of a list that characters begin with, its brackets included. -/
def listPlaceholderAt? (cs : List Char) : Option (List Char × Nat) :=
  match bracketedAt? cs with
  | some found => some found
  | none => spreadAt? cs

/-- The signs of a fragment after some characters have been skipped. -/
def signsFrom : Nat → List Char → List Sign
  | _, [] => []
  | skipped + 1, _ :: rest => signsFrom skipped rest
  | 0, c :: rest =>
    match listPlaceholderAt? (c :: rest) with
    | some (name, length) => .spread name :: signsFrom (length - 1) rest
    | none => .char c :: signsFrom 0 rest

/-- The signs of a fragment. -/
def signs (query : String) : List Sign := signsFrom 0 query.toList

/-- The name of the placeholder after a colon.  A word that a colon follows is no name. -/
def nameAfterColon (cs : List Char) : List Char :=
  let name := cs.takeWhile Text.isWord
  if (cs.drop name.length).head? = some ':' then [] else name

/-- Whether a colon after a character may begin a placeholder. -/
def mayPrecede (before : Option Char) : Bool :=
  match before with
  | some c => !(c = ':' || c = '\\' || Text.isWord c)
  | none => true

/-- The names of the placeholders of a statement, from after a character on. -/
def namesFrom (before : Option Char) : List Char → List String
  | [] => []
  | c :: rest =>
    let name := if c = ':' && mayPrecede before then nameAfterColon rest else []
    if name.isEmpty then namesFrom (some c) rest
    else String.ofList name :: namesFrom (some c) rest

def placeholderNames (statement : String) : List String := namesFrom none statement.toList

end Criteria.Sql
