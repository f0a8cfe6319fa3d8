import Criteria.Value.Entries

/-!
# Containment of documents

A document contains another when every member of the other object, or every item of the other
list, is contained in some part of it at the same level.  A list also contains a single value that
it holds.  All else contains what it equals.  Parts are compared in order until the matter is
settled.
-/

namespace Criteria.Memory

/-- Whether a value is a list or a dictionary. -/
def isContainer : Value → Bool
  | .list _ | .dict _ => true
  | _ => false

/-- Containment when the sides are not two dictionaries and not two lists. -/
def containsPlain (haystack needle : Value) : Verdict :=
  match haystack with
  | .list items =>
    -- Only a single value is looked for among the items without a list around it.
    if isContainer needle then haystack.equality needle else needle.membership items
  | _ => haystack.equality needle

mutual

/-- Whether the first document contains the second. -/
def contains (haystack : Value) : (needle : Value) → Verdict
  | .dict entries =>
    match haystack with
    | .dict held => .all (entryVerdicts held entries)
    | _ => containsPlain haystack (.dict entries)
  | .list items =>
    match haystack with
    | .list held => .all (itemVerdicts held items)
    | _ => containsPlain haystack (.list items)
  | needle => containsPlain haystack needle
termination_by structural needle => needle

/-- For every entry, whether its key is in a dictionary and the value there contains the entry's. -/
def entryVerdicts (held : List (Value × Value)) : List (Value × Value) → List Verdict
  | [] => []
  | (key, value) :: rest =>
    (match Value.lookup? held key with
      | some found => contains found value
      | none => .no) :: entryVerdicts held rest
termination_by structural entries => entries

/-- For every item, whether it is contained in some item of a list. -/
def itemVerdicts (held : List Value) : List Value → List Verdict
  | [] => []
  | item :: rest => .any (held.map fun h ↦ contains h item) :: itemVerdicts held rest
termination_by structural items => items

end

/-- Whether a document is an object with a key, or a list with the key among its texts. -/
def hasKey (document : Value) (key : String) : Bool :=
  match document with
  | .dict entries => (Value.lookup? entries (.text key)).isSome
  | .list items => ((Value.text key).membership items).isYes
  | _ => false

end Criteria.Memory
