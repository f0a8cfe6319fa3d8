import Criteria.Text.Quoted

/-!
# Templates

A template is a text with fields in braces, all of which name the alias of a column.  A doubled
brace stands for itself.  A field may ask for the alias in quotes and may give a width to fill.
A template is filled from left to right, so the first fault from the left is the one reported, and
what a field puts in is not read as a template again.
-/

namespace Criteria.Template

/-- What the layout of a number may ask for and the layout of a text may not. -/
inductive NumberLayout where
  | space | sign | zeroSign | alternateForm | afterSign
  deriving DecidableEq

/-- The wording for a layout that only numbers may have. -/
def NumberLayout.message : NumberLayout → String
  | space => "Space not allowed in string format specifier"
  | sign => "Sign not allowed in string format specifier"
  | zeroSign => "Negative zero coercion (z) not allowed in string format specifier"
  | alternateForm => "Alternate form (#) not allowed in string format specifier"
  | afterSign => "'=' alignment not allowed in string format specifier"

/-- What can be wrong with a template. -/
inductive Fault where
  | loneOpen
  | loneClose
  | unclosed
  | openInName
  | noConversion
  | colonExpected
  | unclosedLayout
  | positional (index : Nat)
  | indexTooLarge
  | unknownName (name : String)
  | emptyAccess
  | missingBracket
  | afterBracket
  | noAttribute (name : String)
  | itemTooFar
  | itemNotNumber
  | unknownConversion (c : Char)
  | badLayout (layout : String)
  | unknownLayoutCode (c : Char)
  | forNumbers (layout : NumberLayout)
  | groupingWithCode (grouping code : Char)
  | bothGroupings
  | precisionMissing
  | tooDeep
  deriving DecidableEq

/-- A character as it is named: one with a code below `limit` by itself, unless it is a control
character or a blank, and any other by its code. -/
def codeText (limit : Nat) (c : Char) : String :=
  if ' ' < c ∧ c.toNat < limit then toString c
  else "\\x" ++ String.ofList (Nat.toDigits 16 c.toNat)

def Fault.message : Fault → String
  | loneOpen => "Single '\x7b' encountered in format string"
  | loneClose => "Single '\x7d' encountered in format string"
  | unclosed => "expected '\x7d' before end of string"
  | openInName => "unexpected '\x7b' in field name"
  | noConversion => "end of string while looking for conversion specifier"
  | colonExpected => "expected ':' after conversion specifier"
  | unclosedLayout => "unmatched '\x7b' in format spec"
  | positional index =>
    "Replacement index " ++ toString index ++ " out of range for positional args tuple"
  | indexTooLarge => "Too many decimal digits in format string"
  | unknownName name => Text.quoted name
  | emptyAccess => "Empty attribute in format string"
  | missingBracket => "Missing ']' in format string"
  | afterBracket => "Only '.' or '[' may follow ']' in format field specifier"
  | noAttribute name => "'str' object has no attribute '" ++ name ++ "'"
  | itemTooFar => "string index out of range"
  | itemNotNumber => "string indices must be integers, not 'str'"
  | unknownConversion c => "Unknown conversion specifier " ++ codeText 127 c
  | badLayout layout =>
    "Invalid format specifier '" ++ layout ++ "' for object of type 'str'"
  | unknownLayoutCode c =>
    "Unknown format code '" ++ codeText 128 c ++ "' for object of type 'str'"
  | forNumbers layout => layout.message
  | groupingWithCode grouping code =>
    "Cannot specify '" ++ toString grouping ++ "' with '" ++ codeText 128 code ++ "'."
  | bothGroupings => "Cannot specify both ',' and '_'."
  | precisionMissing => "Format specifier missing precision"
  | tooDeep => "Max string recursion exceeded"

/-- A field: the name in it, the conversion it asks for and the layout of the result. -/
structure Field where
  name : List Char
  conversion : Option Char
  layout : List Char

/-- The characters up to the next field, and what follows the brace that opens it. -/
def scanLiteral : List Char → Except Fault (List Char × Option (List Char))
  | [] => .ok ([], none)
  | '\x7b' :: '\x7b' :: rest => do
    let (literal, field) ← scanLiteral rest
    return ('\x7b' :: literal, field)
  | '\x7d' :: '\x7d' :: rest => do
    let (literal, field) ← scanLiteral rest
    return ('\x7d' :: literal, field)
  | ['\x7b'] => .error .loneOpen
  | '\x7b' :: rest => .ok ([], some rest)
  | '\x7d' :: _ => .error .loneClose
  | c :: rest => do
    let (literal, field) ← scanLiteral rest
    return (c :: literal, field)

/-- The name of a field, and what follows from the sign that ends it.  Inside square brackets no
sign ends the name. -/
def scanName : (bracketed : Bool) → List Char → Except Fault (List Char × List Char)
  | _, [] => .ok ([], [])
  | true, c :: rest => do
    let (name, rest) ← scanName (c ≠ ']') rest
    return (c :: name, rest)
  | false, c :: rest =>
    if c = '\x7b' then .error .openInName
    else if c = '\x7d' ∨ c = ':' ∨ c = '!' then .ok ([], c :: rest)
    else do
      let (name, rest) ← scanName (c = '[') rest
      return (c :: name, rest)

/-- The layout of a field, which may hold fields of its own, and what follows the closing brace. -/
def scanLayout : (depth : Nat) → List Char → Except Fault (List Char × List Char)
  | _, [] => .error .unclosedLayout
  | depth, '\x7b' :: rest => do
    let (layout, rest) ← scanLayout (depth + 1) rest
    return ('\x7b' :: layout, rest)
  | 0, '\x7d' :: rest => .ok ([], rest)
  | depth + 1, '\x7d' :: rest => do
    let (layout, rest) ← scanLayout depth rest
    return ('\x7d' :: layout, rest)
  | depth, c :: rest => do
    let (layout, rest) ← scanLayout depth rest
    return (c :: layout, rest)

/-- A field whose opening brace has been read, and what follows it. -/
def scanField (cs : List Char) : Except Fault (Field × List Char) := do
  let (name, rest) ← scanName false cs
  match rest with
  | '\x7d' :: rest => return (⟨name, none, []⟩, rest)
  | ':' :: rest =>
    let (layout, rest) ← scanLayout 0 rest
    return (⟨name, none, layout⟩, rest)
  | ['!'] => .error .noConversion
  | '!' :: c :: '\x7d' :: rest => return (⟨name, some c, []⟩, rest)
  | '!' :: c :: ':' :: rest =>
    let (layout, rest) ← scanLayout 0 rest
    return (⟨name, some c, layout⟩, rest)
  | ['!', _] => .error .unclosedLayout
  | '!' :: _ => .error .colonExpected
  | _ => .error .unclosed

/-- The number that characters write, if they are digits of any script and nothing else.  Digits in
front of other characters must not be too many either. -/
def indexOf? (cs : List Char) : Except Fault (Option Nat) :=
  let values := (cs.takeWhile fun c ↦ (Text.digitValue? c).isSome).filterMap Text.digitValue?
  let n := Text.ofDigits 10 values
  if Nat.pow 2 63 ≤ n then .error .indexTooLarge
  else .ok (if cs.isEmpty ∨ values.length < cs.length then none else some n)

/-- What the accesses after a name select from a text: items are characters, and a text has no
attributes. -/
def access : (size : Nat) → (value : List Char) → List Char → Except Fault (List Char)
  | _, value, [] => .ok value
  | 0, value, _ => .ok value
  | size + 1, value, '[' :: rest => do
    let item := rest.takeWhile (· ≠ ']')
    if rest.length = item.length then .error .missingBracket
    let index ← indexOf? item
    if item.isEmpty then .error .emptyAccess
    match index with
    | none => .error .itemNotNumber
    | some i =>
      match value[i]? with
      | none => .error .itemTooFar
      | some c => access size [c] (rest.drop (item.length + 1))
  | _ + 1, _, '.' :: rest =>
    let name := rest.takeWhile fun c ↦ c ≠ '.' ∧ c ≠ '['
    if name.isEmpty then .error .emptyAccess else .error (.noAttribute (String.ofList name))
  | _ + 1, _, _ :: _ => .error .afterBracket

def resolve (fieldAlias name : List Char) : Except Fault (List Char) := do
  let first := name.takeWhile fun c ↦ c ≠ '.' ∧ c ≠ '['
  match ← indexOf? first with
  | some index => .error (.positional index)
  | none =>
    if first.isEmpty then .error (.positional 0)
    else if String.ofList first ≠ "alias" then .error (.unknownName (String.ofList first))
    else access name.length fieldAlias (name.drop first.length)

/-- A text as a conversion shows it. -/
def convert (value : List Char) : Option Char → Except Fault (List Char)
  | none => .ok value
  | some 's' => .ok value
  | some 'r' => .ok (Text.quoted (String.ofList value)).toList
  | some 'a' => .ok (Text.quotedAscii (String.ofList value)).toList
  | some c => .error (.unknownConversion c)

/-- Where a text stands in a wider column.  Only a number can be filled after its sign. -/
inductive Alignment where
  | left | right | centre | afterSign
  deriving DecidableEq

/-- The alignment of its sign. -/
def Alignment.ofChar? : Char → Option Alignment
  | '<' => some .left
  | '>' => some .right
  | '^' => some .centre
  | '=' => some .afterSign
  | _ => none

/-- The fill and the alignment at the front of a layout, and what follows them.  A text stands on
the left when nothing else is said. -/
def readAlignment : List Char → Option Char × Alignment × List Char
  | c :: d :: rest =>
    match Alignment.ofChar? d with
    | some a => (some c, a, rest)
    | none =>
      match Alignment.ofChar? c with
      | some a => (none, a, d :: rest)
      | none => (none, .left, c :: d :: rest)
  | [c] =>
    match Alignment.ofChar? c with
    | some a => (none, a, [])
    | none => (none, .left, [c])
  | [] => (none, .left, [])

/-- A text in a column of a given width; when it is centred the odd blank stands on the right. -/
def pad (fill : Char) (width : Nat) (value : List Char) : Alignment → List Char
  | .right => List.replicate (width - value.length) fill ++ value
  | .centre =>
    let missing := width - value.length
    List.replicate (missing / 2) fill ++ value ++ List.replicate (missing - missing / 2) fill
  | _ => value ++ List.replicate (width - value.length) fill

/-- What only numbers may ask for at the front of what follows the alignment, and what follows
that. -/
def readNumberLayouts (cs : List Char) : List NumberLayout × List Char :=
  let (signs, cs) : List NumberLayout × List Char := match cs with
    | ' ' :: rest => ([.space], rest)
    | '+' :: rest | '-' :: rest => ([.sign], rest)
    | _ => ([], cs)
  let (zeroSigns, cs) : List NumberLayout × List Char := match cs with
    | 'z' :: rest => ([.zeroSign], rest)
    | _ => ([], cs)
  let (alternates, cs) : List NumberLayout × List Char := match cs with
    | '#' :: rest => ([.alternateForm], rest)
    | _ => ([], cs)
  (signs ++ zeroSigns ++ alternates, cs)

/-- The number that characters begin with, if any, and what follows it. -/
def readCount (cs : List Char) : Except Fault (Option Nat × List Char) :=
  let digits := cs.takeWhile fun c ↦ (Text.digitValue? c).isSome
  let n := Text.ofDigits 10 (digits.filterMap Text.digitValue?)
  if Nat.pow 2 63 ≤ n then .error .indexTooLarge
  else .ok (if digits.isEmpty then none else some n, cs.drop digits.length)

/-- The sign for grouping digits that characters begin with, if any, and what follows it. -/
def readGrouping : List Char → Except Fault (Option Char × List Char)
  | ',' :: '_' :: _ => .error .bothGroupings
  | '_' :: ',' :: _ => .error .bothGroupings
  | ',' :: rest => .ok (some ',', rest)
  | '_' :: rest => .ok (some '_', rest)
  | cs => .ok (none, cs)

/-- The number of characters to keep, if it is said, and what follows it. -/
def readPrecision : List Char → Except Fault (Option Nat × List Char)
  | '.' :: rest => do
    match ← readCount rest with
    | (none, _) => .error .precisionMissing
    | found => return found
  | cs => .ok (none, cs)

/-- Whether digits of a number that is written with a code can be grouped by a sign. -/
def groups (grouping code : Char) : Bool :=
  "defgEG%F".toList.contains code || (grouping == '_' && "boxX".toList.contains code)

/-- The code that ends a layout: that of a text when there is none. -/
def readCode (layout : List Char) : List Char → Except Fault Char
  | [] => .ok 's'
  | [c] => .ok c
  | _ => .error (.badLayout (String.ofList layout))

/-- A text laid out: a fill, an alignment, a width and a number of characters to keep, each of which
may be absent.  A width with a leading zero fills with zeros unless a fill is given. -/
def layOut (value layout : List Char) : Except Fault (List Char) := do
  let (fill, alignment, rest) := readAlignment layout
  let (numberLayouts, rest) := readNumberLayouts rest
  let fill := fill.getD (if rest.head? = some '0' then '0' else ' ')
  let (width, rest) ← readCount rest
  let (grouping, rest) ← readGrouping rest
  let (precision, rest) ← readPrecision rest
  let code ← readCode layout rest
  match grouping with
  | some sign => if !groups sign code then throw (.groupingWithCode sign code)
  | none => pure ()
  if code ≠ 's' then throw (.unknownLayoutCode code)
  match numberLayouts with
  | first :: _ => throw (.forNumbers first)
  | [] => pure ()
  if alignment = .afterSign then throw (.forNumbers .afterSign)
  return pad fill (width.getD 0) (value.take (precision.getD value.length)) alignment

/-- The template filled in with an alias, for templates of at most `size` characters.  The layout
of a field is filled in the same way, `depth` levels deep. -/
def fillWithin (fieldAlias : List Char) : (depth size : Nat) → List Char → Except Fault (List Char)
  | 0, _, _ => .error .tooDeep
  | _ + 1, 0, _ => .ok []
  | depth + 1, size + 1, cs => do
    let (literal, field) ← scanLiteral cs
    match field with
    | none => return literal
    | some rest =>
      let (field, rest) ← scanField rest
      let value ← resolve fieldAlias field.name
      let shown ← convert value field.conversion
      let layout ←
        if field.layout.contains '\x7b' then fillWithin fieldAlias depth (size + 1) field.layout
        else .ok field.layout
      let laid ← layOut shown layout
      let after ← fillWithin fieldAlias (depth + 1) size rest
      return literal ++ laid ++ after

/-- The template filled in with an alias. -/
def fill (template fieldAlias : String) : Except Fault String :=
  (fillWithin fieldAlias.toList 2 (template.length + 1) template.toList).map String.ofList

end Criteria.Template
