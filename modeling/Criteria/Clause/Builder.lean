import Criteria.Clause.Sink
import Criteria.Fragment

/-!
# The where clause as text

A builder collects clauses and groups and renders them as one query fragment.  The parameters of
all clauses, at whatever depth, are bound in one map, in which no name is bound twice.  Rendering
drops the join of the first item of a sequence and leaves out a group that renders to nothing.
-/

namespace Criteria.Clause

/-- A where clause under construction. -/
structure Builder where
  items : List (Item Fragment)
  bound : Parameters

/-- The signs that a rendered where clause is made of. -/
inductive Token where
  | opening
  | closing
  | joined (j : Join)
  | query (text : String)
  deriving DecidableEq

namespace Token

def text : Token → String
  | opening => "("
  | closing => ")"
  | joined j => " " ++ j.keyword ++ " "
  | query text => text

end Token

def tokensText (tokens : List Token) : String := String.join (tokens.map Token.text)

/-- A group in brackets, unless it renders to nothing. -/
def bracketed? (tokens : List Token) : Option (List Token) :=
  if (tokensText tokens).isEmpty then none else some (.opening :: (tokens ++ [.closing]))

/-- Parts in a row, each with its join in front but the first. -/
def joinParts : List (Join × List Token) → List Token
  | [] => []
  | (_, first) :: rest => first ++ rest.flatMap fun (j, part) ↦ .joined j :: part

mutual

/-- The part that an item contributes, if any. -/
def itemPart : Item Fragment → Option (Join × List Token)
  | .clause j content => some (j, [.query content.query])
  | .group j items => (bracketed? (joinParts (itemParts items))).map (j, ·)
termination_by structural item => item

/-- The parts that items contribute. -/
def itemParts : List (Item Fragment) → List (Join × List Token)
  | [] => []
  | item :: rest =>
    match itemPart item with
    | some part => part :: itemParts rest
    | none => itemParts rest
termination_by structural items => items

end

def tokensOf (items : List (Item Fragment)) : List Token := joinParts (itemParts items)

def render (items : List (Item Fragment)) : String := tokensText (tokensOf items)

namespace Builder

def empty : Builder := ⟨[], []⟩

/-- The first of some parameters whose name is bound already. -/
def conflict? (b : Builder) (parameters : Parameters) : Option String :=
  (parameters.find? fun p ↦ b.bound.binds p.1).map (·.1)

/-- The builder with parameters bound, none of which may be bound already. -/
def bind (parameters : Parameters) (b : Builder) : Except Fault Builder :=
  match b.conflict? parameters with
  | some name => .error (.condition (.nameBound name))
  | none => .ok { b with bound := b.bound ++ parameters }

/-- The builder with a clause at the end of the group at a path. -/
def addClause (path : Path) (j : Join) (query : String) (parameters : Parameters) (b : Builder) :
    Except Fault Builder :=
  match b.bind parameters with
  | .error fault => .error fault
  | .ok b =>
    .ok { b with items := Item.appendAt path (.clause j ⟨query, parameters⟩) b.items }

/-- The path of a group opened at the end of the group at a path, and the builder with it. -/
def openGroup (path : Path) (j : Join) (b : Builder) : Path × Builder :=
  match Item.openAt path j b.items with
  | (inner, items) => (inner, { b with items })

/-- A clause whose join is still to be read.  The parameters are bound before the join is read, so
they stay bound when it is no join. -/
def addClauseBy (path : Path) (j : Value) (query : String) (parameters : Parameters) :
    EStateM Fault Builder Unit := fun b ↦
  match b.bind parameters with
  | .error fault => .error fault b
  | .ok b =>
    match joinOf j with
    | .error fault => .error fault b
    | .ok j =>
      .ok () { b with items := Item.appendAt path (.clause j ⟨query, parameters⟩) b.items }

/-- The fragment of the group at a path: its text, and all parameters of the builder. -/
def build (path : Path) (b : Builder) : Fragment :=
  ⟨render (Item.itemsAt path b.items), b.bound⟩

/-- Whether the group at a path renders to nothing. -/
def isEmpty (path : Path) (b : Builder) : Bool := (render (Item.itemsAt path b.items)).isEmpty

end Builder

instance : Sink Builder := ⟨Builder.addClause, Builder.openGroup⟩

variable {σ : Type} [Sink σ]

mutual

/-- An item added again, to another sink. -/
def replayItem (path : Path) : Item Fragment → EStateM Fault σ Unit
  | .clause j content => addTo path j content.query content.parameters
  | .group j items => do
    let inner ← openIn path j
    replay inner items
termination_by structural item => item

/-- Items added again, in order, to another sink. -/
def replay (path : Path) : List (Item Fragment) → EStateM Fault σ Unit
  | [] => pure ()
  | item :: rest => do
    replayItem path item
    replay path rest
termination_by structural items => items

end

end Criteria.Clause
