import Criteria.Value.Basic
import Criteria.Number.Shortest
import Criteria.Text.Quoted

/-!
# The text of a value

A value has two texts.  `inspect` shows it the way it is written in a message: texts stand in
quotes, and decimals, dates and times name their kind.  `toText` is the text that a pattern is
matched against: a text is itself, and decimals, dates and times are written plainly.  Inside a
collection every item is inspected.  A value with a whole number of too many digits in it has
neither text.
-/

namespace Criteria.Value

/-- The word for a truth value. -/
def boolText (b : Bool) : String := if b then "True" else "False"

/-- Numbers in parentheses after the name of a kind. -/
def callText (name : String) (arguments : List String) : String :=
  name ++ "(" ++ String.intercalate ", " arguments ++ ")"

/-- A span of time as it is inspected, in the days, seconds and microseconds that are not zero. -/
def spanText (micros : Int) : String :=
  let perDay : Int := 86400000000
  let days := micros.fdiv perDay
  let rest := (micros.fmod perDay).toNat
  let part (name : String) (n : Int) : List String :=
    if n = 0 then [] else [name ++ "=" ++ toString n]
  let parts := part "days" days ++ part "seconds" (rest / 1000000 : Nat)
    ++ part "microseconds" (rest % 1000000 : Nat)
  callText "datetime.timedelta" (if parts.isEmpty then ["0"] else parts)

/-- An offset from universal time as it is inspected. -/
def offsetText (offset : Int) : String :=
  if offset = 0 then "datetime.timezone.utc" else callText "datetime.timezone" [spanText offset]

def inspectDate (d : Calendar.Date) : String :=
  callText "datetime.date" [toString d.year, toString d.month, toString d.day]

/-- A time as it is inspected; trailing zero seconds and microseconds are left out. -/
def inspectDateTime (t : Calendar.DateTime) : String :=
  let tail :=
    if t.micro ≠ 0 then [toString t.second, toString t.micro]
    else if t.second ≠ 0 then [toString t.second] else []
  let zone := (t.offset.map fun o ↦ ["tzinfo=" ++ offsetText o]).getD []
  callText "datetime.datetime"
    ([toString t.date.year, toString t.date.month, toString t.date.day, toString t.hour,
      toString t.minute] ++ tail ++ zone)

/-- Items between brackets. -/
def bracketed (left right : String) (items : List String) : String :=
  left ++ String.intercalate ", " items ++ right

/-- A tuple of one item keeps a comma after it. -/
def tupleText : List String → String
  | [item] => "(" ++ item ++ ",)"
  | items => bracketed "(" ")" items

/-- The empty set is not written with braces, which stand for an empty dictionary. -/
def setText : List String → String
  | [] => "set()"
  | items => bracketed "\x7b" "\x7d" items

/-- A member of one of the vocabularies of operators as it is inspected. -/
def memberText (family label token : String) : String :=
  "<" ++ family ++ "." ++ label ++ ": " ++ Text.quoted token ++ ">"

/-- An operator as it is inspected, given the texts of its operand and its parameters. -/
def operatorText (kind : FindKind) (operand : String) (template : Option String)
    (parameters : List String) (origin : Option Operator) : String :=
  callText "FindOperator"
    ["type=" ++ memberText "FindOperatorType" kind.label kind.name, "value=" ++ operand,
      "template=" ++ (template.map Text.quoted).getD "None",
      "parameters=" ++ bracketed "\x7b" "\x7d" parameters,
      "origin=" ++ (origin.map fun o ↦ memberText "ConditionOperator" o.label o.token).getD "None"]

mutual

/-- A value as it is shown in a message. -/
def inspect : Value → String
  | null => "None"
  | bool b => boolText b
  | int n => toString n
  | float x => x.text
  | decimal d => callText "Decimal" ["'" ++ d.text ++ "'"]
  | text s => Text.quoted s
  | bytes bs => Text.quotedBytes bs
  | date d => inspectDate d
  | datetime t => inspectDateTime t
  | list items => bracketed "[" "]" (inspectAll items)
  | tuple items => tupleText (inspectAll items)
  | set items => setText (inspectAll items)
  | dict entries => bracketed "\x7b" "\x7d" (inspectEntries entries)
  | record fields => bracketed "namespace(" ")" (inspectFields fields)
  | object _ => "<object object>"
  | operator kind operand template parameters origin =>
    operatorText kind (inspect operand) template (inspectParameters parameters) origin
termination_by structural v => v

/-- The items of a collection. -/
def inspectAll : List Value → List String
  | [] => []
  | v :: rest => inspect v :: inspectAll rest
termination_by structural v => v

/-- The entries of a dictionary. -/
def inspectEntries : List (Value × Value) → List String
  | [] => []
  | (k, v) :: rest => (inspect k ++ ": " ++ inspect v) :: inspectEntries rest
termination_by structural v => v

/-- The attributes of a record that have a name which is not empty. -/
def inspectFields : List (String × Value) → List String
  | [] => []
  | (name, v) :: rest =>
    if name.isEmpty then inspectFields rest
    else (name ++ "=" ++ inspect v) :: inspectFields rest
termination_by structural v => v

/-- The parameters of an operator. -/
def inspectParameters : List (String × Value) → List String
  | [] => []
  | (name, v) :: rest => (Text.quoted name ++ ": " ++ inspect v) :: inspectParameters rest
termination_by structural v => v

end

mutual

/-- Whether a value has a text: every whole number that is shown in it can be written. -/
def hasText : Value → Bool
  | int n => Number.hasNumeral n
  | list items => haveTexts items
  | tuple items => haveTexts items
  | set items => haveTexts items
  | dict entries => entriesHaveTexts entries
  | record fields => fieldsHaveTexts fields
  | operator _ operand _ parameters _ => hasText operand && parametersHaveTexts parameters
  | _ => true
termination_by structural v => v

/-- Whether the items of a collection have texts. -/
def haveTexts : List Value → Bool
  | [] => true
  | v :: rest => hasText v && haveTexts rest
termination_by structural v => v

/-- Whether the entries of a dictionary have texts. -/
def entriesHaveTexts : List (Value × Value) → Bool
  | [] => true
  | (k, v) :: rest => hasText k && hasText v && entriesHaveTexts rest
termination_by structural v => v

/-- Whether the attributes of a record that are shown have texts. -/
def fieldsHaveTexts : List (String × Value) → Bool
  | [] => true
  | (name, v) :: rest => (name.isEmpty || hasText v) && fieldsHaveTexts rest
termination_by structural v => v

/-- Whether the parameters of an operator have texts. -/
def parametersHaveTexts : List (String × Value) → Bool
  | [] => true
  | (_, v) :: rest => hasText v && parametersHaveTexts rest
termination_by structural v => v

end

/-- The plain text of a value. -/
def toText : Value → String
  | text s => s
  | decimal d => d.text
  | date d => d.iso
  | datetime t => t.text
  | v => v.inspect

/-- The plain text of a value that has one. -/
def text? (v : Value) : Option String := if v.hasText then some v.toText else none

end Criteria.Value
