import Criteria.Compiler
import Criteria.FilterTree
import Criteria.Memory.Evaluator

/-!
# Filtering candidates

A filter tree is evaluated on a candidate by compiling each of its conditions into an abstract
operator.  Entries are joined as they are in a where clause: those of a tree by `AND`, those under a
logical key by the join of that key, and a group without any condition counts for nothing.  What a
path leads to depends on the attributes of the objects in the candidate, so they belong to it.
-/

namespace Criteria.Memory

/-- A value to be filtered, and the attributes that the objects in it have. -/
structure Candidate where
  value : Value
  attribute? : Value → String → Option Value

/-- A candidate whose objects have no other attributes than those that are values. -/
def Candidate.plain (v : Value) : Candidate := ⟨v, Value.attribute?⟩

/-- The parts of a dotted path. -/
def pathParts (cs : List Char) : List String :=
  (cs.foldr (fun c parts ↦
    if c = '.' then [] :: parts
    else match parts with
      | part :: rest => (c :: part) :: rest
      | [] => [[c]]) [[]]).map String.ofList

/-- The value of one part of a path: an entry of a dictionary, or an attribute of anything else.  A
missing value has no parts. -/
def stepInto (attribute? : Value → String → Option Value) (v : Value) (part : String) : Value :=
  match v with
  | .null => .null
  | .dict entries => (Value.lookup? entries (.text part)).getD .null
  | v => (attribute? v part).getD .null

/-- The value that a dotted path leads to.  A path that leads nowhere leads to the missing value. -/
def resolveField (c : Candidate) (path : String) : Value :=
  (pathParts path.toList).foldl (stepInto c.attribute?) c.value

/-- The path that a field name is. -/
def fieldPath : Value → Except Fault String
  | .text s => .ok s
  | .bytes _ => .error .textInBytes
  | field => .error (.noAttribute field "split")

/-- A truth value joined to those before it, if there are any. -/
def joined (join : Join) (before : Option Bool) (value : Bool) : Option Bool :=
  some ((before.map fun b ↦ join.apply b value).getD value)

variable (compiler : Criteria.Registry) (r : Registry) (candidate : Candidate)

/-- One condition of a tree on the candidate.  The names of parameters play no part, so any
identifier will do. -/
def evaluateLeaf (field condition : Value) : Except Fault Bool :=
  match admission compiler condition with
  | .error cause => .error ((Fault.raised cause).withField field)
  | .ok admitted =>
    match fieldPath field with
    | .error fault => .error fault
    | .ok path => evaluate r (admitted.findOperator "" field) (resolveField candidate path)

mutual

/-- The entries of a tree, joined to the truth values before them. -/
def evaluateEntries (join : Join) (before : Option Bool) :
    List (Value × Value) → Except Fault (Option Bool)
  | [] => .ok before
  | (field, condition) :: rest =>
    match logicalKey? field with
    | some key =>
      match evaluateGroup key condition with
      | .error fault => .error fault
      | .ok none => evaluateEntries join before rest
      | .ok (some value) => evaluateEntries join (joined join before value) rest
    | none =>
      match evaluateLeaf compiler r candidate field condition with
      | .error fault => .error fault
      | .ok value => evaluateEntries join (joined join before value) rest
termination_by structural entries => entries

/-- The value under a logical key. -/
def evaluateGroup (key : LogicalKey) : Value → Except Fault (Option Bool)
  | .list subtrees => evaluateSubtrees key none subtrees
  | .tuple subtrees => evaluateSubtrees key none subtrees
  | subtrees =>
    .error (.condition (.located (.text key.token) none (FilterTree.notList key subtrees) none))
termination_by structural subtrees => subtrees

/-- The trees of a logical list, joined to the truth values before them. -/
def evaluateSubtrees (key : LogicalKey) (before : Option Bool) :
    List Value → Except Fault (Option Bool)
  | [] => .ok before
  | subtree :: rest =>
    match evaluateSubtree key.join subtree with
    | .error fault => .error fault
    | .ok none => evaluateSubtrees key before rest
    | .ok (some value) => evaluateSubtrees key (joined key.join before value) rest
termination_by structural subtrees => subtrees

/-- One tree, whose entries are joined by a given join. -/
def evaluateSubtree (join : Join) : Value → Except Fault (Option Bool)
  | .dict entries => evaluateEntries join none entries
  | tree => .error (.condition (FilterTree.notMapping tree))
termination_by structural tree => tree

end

/-- Whether a candidate satisfies a tree.  A tree without any condition is always satisfied. -/
def isSatisfiedBy (tree : Value) : Except Fault Bool :=
  (evaluateSubtree compiler r candidate .and tree).map (·.getD true)

/-- The candidates that satisfy a tree, with their places. -/
def filter (compiler : Criteria.Registry) (r : Registry) (tree : Value)
    (candidates : List Candidate) : Except Fault (List (Candidate × Nat)) :=
  candidates.zipIdx.filterM fun c ↦ isSatisfiedBy compiler r c.1 tree

end Criteria.Memory
