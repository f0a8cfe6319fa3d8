import Criteria.Binding
import Criteria.Fault

/-!
# Statements

A statement is written piece by piece.  A piece is text or a parameter, and a parameter either has
a name or is given one, the next number after what its name begins with.  A list of values is left
to be spread out when the statement is run.  Parameters may share a name, as long as all of them or
none of them is spread out; an exclusive parameter shares its name with no other.
-/

namespace Criteria.Sql

/-- A value for a placeholder, and whether it is a list to be spread out. -/
structure Bind where
  value : Value
  spread : Bool

inductive Piece where
  | text (s : String)
  | named (name : String) (bind : Bind)
  /-- A parameter whose name is the next number after a base. -/
  | unnamed (base : String) (exclusive : Bool) (bind : Bind)
  /-- The last unnamed parameter with a base, once more. -/
  | again (base : String)

/-- Whether a piece writes anything. -/
def Piece.isWritten : Piece → Bool
  | text s => !s.isEmpty
  | _ => true

/-- A parameter of a statement, and whether its name must be its own. -/
structure Parameter where
  name : String
  bind : Bind
  exclusive : Bool

namespace Parameter

/-- How a parameter stands in a statement. -/
def sql (p : Parameter) : String :=
  if p.bind.spread then "(__[POSTCOMPILE_" ++ p.name ++ "])" else ":" ++ p.name

/-- Why two parameters cannot stand in one statement, if they cannot. -/
def clash? (p q : Parameter) : Option Fault :=
  if p.name ≠ q.name then none
  else if p.exclusive || q.exclusive then some (.exclusiveName p.name)
  else if p.bind.spread != q.bind.spread then some (.spreadName p.name)
  else none

/-- The first clash among parameters, of which some precede the others. -/
def firstClash? (before : List Parameter) : List Parameter → Option Fault
  | [] => none
  | p :: rest =>
    match before.findSome? p.clash? with
    | some fault => some fault
    | none => firstClash? (p :: before) rest

end Parameter

/-- A piece of a statement in which every parameter has a name. -/
inductive Part where
  | text (s : String)
  | parameter (p : Parameter)

namespace Part

/-- The name of the parameter with a number. -/
def numberedName (base : String) (number : Nat) : String := base ++ "_" ++ toString number

/-- The parts that pieces make, after unnamed parameters with some bases. -/
def ofPieces (before : List String) : List Piece → List Part
  | [] => []
  | .text s :: rest => text s :: ofPieces before rest
  | .named name bind :: rest => parameter ⟨name, bind, false⟩ :: ofPieces before rest
  | .unnamed base exclusive bind :: rest =>
    parameter ⟨numberedName base (before.count base + 1), bind, exclusive⟩
      :: ofPieces (base :: before) rest
  | .again base :: rest =>
    text (":" ++ numberedName base (before.count base)) :: ofPieces before rest

def sql : Part → String
  | text s => s
  | parameter p => p.sql

def parameter? : Part → Option Parameter
  | text _ => none
  | parameter p => some p

end Part

structure Statement where
  sql : String
  params : Parameters

namespace Statement

/-- The statement that pieces make.  Of two values for one name the last counts. -/
def ofPieces (pieces : List Piece) : Except Fault Statement :=
  let parts := Part.ofPieces [] pieces
  let parameters := parts.filterMap Part.parameter?
  match Parameter.firstClash? [] parameters with
  | some fault => .error fault
  | none =>
    .ok ⟨String.join (parts.map Part.sql),
      parameters.foldl (fun params p ↦ params.put p.name p.bind.value) []⟩

end Statement

end Criteria.Sql
