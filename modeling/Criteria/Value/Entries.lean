import Criteria.Value.Equality

/-!
# Entries of dictionaries

Looking up and adding entries.  Keys match when they are equal values, so `1`, `1.0` and the truth
value name the same entry, or one object.  Adding an entry under a key that is there keeps the old
key and its place.
-/

namespace Criteria.Value

def lookup? (entries : List (Value × Value)) (key : Value) : Option Value :=
  (entries.find? fun e ↦ key.equal e.1).map (·.2)

/-- The entries with a value put under a key. -/
def insertEntry {α : Type} (key : Value) (value : α) : List (Value × α) → List (Value × α)
  | [] => [(key, value)]
  | (k, v) :: rest =>
    if key.equal k then (k, value) :: rest else (k, v) :: insertEntry key value rest

/-- The dictionary that comes from adding entries one after the other. -/
def ofEntries (entries : List (Value × Value)) : Value :=
  dict (entries.foldl (fun done e ↦ insertEntry e.1 e.2 done) [])

end Criteria.Value
