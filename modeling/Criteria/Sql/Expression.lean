import Criteria.Clause.Item
import Criteria.Sql.Output

/-!
# Logical expressions

An expression joins atoms by AND and OR.  Joining expressions that are joined in the same way
already makes one long junction of them, and the junction of a single expression is that
expression.  A sequence of clauses makes an expression as SQL reads it: AND binds tighter than OR,
so the sequence falls into runs of AND, and the runs are joined by OR.
-/

namespace Criteria.Sql

open Clause (Item)

/-- An expression over atoms. -/
inductive Expression (α : Type) where
  | atom (a : α)
  | always
  | never
  | all (parts : List (Expression α))
  | any (parts : List (Expression α))

namespace Expression

variable {α : Type}

def conjuncts : Expression α → List (Expression α)
  | all parts => parts
  | e => [e]

def disjuncts : Expression α → List (Expression α)
  | any parts => parts
  | e => [e]

def conjunction : List (Expression α) → Expression α
  | [e] => e
  | es => all (es.flatMap conjuncts)

def disjunction : List (Expression α) → Expression α
  | [e] => e
  | es => any (es.flatMap disjuncts)

/-- The runs of AND in a sequence.  The join of the first part says nothing. -/
def runs : List (Join × Expression α) → List (List (Expression α))
  | [] => []
  | [(_, e)] => [[e]]
  | (_, e) :: (j, f) :: rest =>
    match j, runs ((j, f) :: rest) with
    | .and, run :: others => (e :: run) :: others
    | _, others => [e] :: others

/-- The expression of a sequence, unless it is empty. -/
def ofParts? (parts : List (Join × Expression α)) : Option (Expression α) :=
  if parts.isEmpty then none else some (disjunction ((runs parts).map conjunction))

mutual

/-- What an item contributes to a sequence.  A group that is empty contributes nothing. -/
def ofItem? : Item α → Option (Join × Expression α)
  | .clause j a => some (j, atom a)
  | .group j items => (ofParts? (partsOf items)).map (j, ·)
termination_by structural item => item

/-- What items contribute to a sequence. -/
def partsOf : List (Item α) → List (Join × Expression α)
  | [] => []
  | item :: rest =>
    match ofItem? item with
    | some part => part :: partsOf rest
    | none => partsOf rest
termination_by structural items => items

end

/-- The expression of a sequence of items, unless there is nothing in it. -/
def ofItems? (items : List (Item α)) : Option (Expression α) := ofParts? (partsOf items)

def isAny : Expression α → Bool
  | any _ => true
  | _ => false

def isAlways : Expression α → Bool
  | always => true
  | _ => false

def isNever : Expression α → Bool
  | never => true
  | _ => false

def bracketed (pieces : List Piece) : List Piece := .text "(" :: (pieces ++ [.text ")"])

/-- Parts in a row with a separator between them.  A part that writes nothing is left out. -/
def separated (separator : String) (parts : List (List Piece)) : List Piece :=
  match parts.filter (·.any Piece.isWritten) with
  | [] => []
  | first :: rest => first ++ rest.flatMap fun part ↦ .text separator :: part

mutual

/-- The pieces of an expression.  An OR within an AND is put in brackets. -/
def pieces (ofAtom : α → List Piece) : Expression α → List Piece
  | atom a => ofAtom a
  | always => [.text "true"]
  | never => [.text "false"]
  | all parts => separated " AND " (partsOfAll ofAtom parts)
  | any parts => separated " OR " (partsOfAny ofAtom parts)
termination_by structural e => e

def partsOfAll (ofAtom : α → List Piece) : List (Expression α) → List (List Piece)
  | [] => []
  | e :: rest =>
    (if e.isAny then bracketed (pieces ofAtom e) else pieces ofAtom e) :: partsOfAll ofAtom rest
termination_by structural es => es

def partsOfAny (ofAtom : α → List Piece) : List (Expression α) → List (List Piece)
  | [] => []
  | e :: rest => pieces ofAtom e :: partsOfAny ofAtom rest
termination_by structural es => es

end

end Expression

end Criteria.Sql
