import Criteria.Fault
import Criteria.Value.Entries

/-!
# Keys

Lists, sets, dictionaries and records can change after they are made, and so can the parameters of
an operator and a tuple that holds something that can change.  A value that can change is no key,
and neither is a signalling number.
-/

namespace Criteria.Value

mutual

/-- Why a value is no key, if it is none: the first part of it that cannot be part of a key. -/
def keyFault? : Value → Option Fault
  | .list items => some (.mutableKey (.list items))
  | .set items => some (.mutableKey (.set items))
  | .dict entries => some (.mutableKey (.dict entries))
  | .record fields => some (.mutableKey (.record fields))
  | .tuple items => keyFaultOf? items
  | .decimal d => if d.isSignalling then some .signallingKey else none
  | .operator _ operand _ _ _ => some ((keyFault? operand).getD (.mutableKey (.dict [])))
  | _ => none
termination_by structural v => v

/-- Why some values cannot be parts of a key, if they cannot. -/
def keyFaultOf? : List Value → Option Fault
  | [] => none
  | item :: rest =>
    match keyFault? item with
    | some fault => some fault
    | none => keyFaultOf? rest
termination_by structural items => items

end

/-- The dictionary that comes from adding entries one after the other, if they have keys. -/
def dictOf (entries : List (Value × Value)) : Except Fault Value :=
  match keyFaultOf? (entries.map (·.1)) with
  | some fault => .error fault
  | none => .ok (ofEntries entries)

/-- The set of some items, if they can be keys. -/
def setOf (items : List Value) : Except Fault Value :=
  match keyFaultOf? items with
  | some fault => .error fault
  | none => .ok (set items)

end Criteria.Value
