import Criteria.Clause.Builder
import Criteria.Compiler

/-!
# Filter trees

A filter tree maps field names to conditions; under a logical key it holds a list of trees that
form a bracketed group.  A tree is first composed into an empty builder, and reaches its sink only
when that has succeeded.  A fault is reported with the field at which it arose and with the
field's path in the tree, such as `$or[1].age`.
-/

namespace Criteria

open Clause (Path Sink Builder)

/-- The logical key that a field name is. -/
def logicalKey? : Value → Option LogicalKey
  | .text s => LogicalKey.ofToken? s
  | _ => none

/-- The relation and the field that a dotted name begins with. -/
def relationAlias (cs : List Char) : String :=
  let relation := cs.takeWhile (· ≠ '.')
  let field := (cs.drop (relation.length + 1)).takeWhile (· ≠ '.')
  String.ofList (relation ++ '.' :: field)

def baseAlias (field base : Value) : String := base.toText ++ "." ++ field.toText

/-- The alias of a field that is a collection: whether a point is among the items is asked first, as
it is for a text. -/
def itemsAlias (field base : Value) (items : List Value) : Except Fault String :=
  if ((Value.text ".").membership items).isYes then .error (.noAttribute field "split")
  else if field.hasText then .ok (baseAlias field base)
  else .error .unwrittenNumber

/-- The alias of a field: a name without a point belongs to the base alias, and a dotted name
addresses a relation. -/
def resolveAlias (field base : Value) : Except Fault String :=
  match field with
  | .text s => .ok (if s.toList.contains '.' then relationAlias s.toList else baseAlias field base)
  | .bytes _ => .error .textInBytes
  | .list items | .tuple items | .set items => itemsAlias field base items
  | .dict entries => itemsAlias field base (entries.map (·.1))
  | _ => .error (.notSearchable field)

/-- A sink under construction together with the source of identifiers. -/
structure Composition (σ : Type) where
  sink : σ
  ids : IdSource

/-- A step of composing, which may change the sink, may draw identifiers and may fail. -/
abbrev Composing (σ : Type) := EStateM Fault (Composition σ)

namespace Composing

variable {σ α : Type}

/-- A step that only changes the sink. -/
def onSink (step : EStateM Fault σ α) : Composing σ α := fun s ↦
  match step s.sink with
  | .ok a sink => .ok a { s with sink }
  | .error fault sink => .error fault { s with sink }

/-- A step that only draws identifiers. -/
def onIds (step : Compiling α) : Composing σ α := fun s ↦
  match step s.ids with
  | .ok a ids => .ok a { s with ids }
  | .error fault ids => .error fault { s with ids }

/-- A step whose faults are reported in another way. -/
def reporting (report : Fault → Fault) (step : Composing σ α) : Composing σ α := fun s ↦
  match step s with
  | .ok a s => .ok a s
  | .error fault s => .error (report fault) s

end Composing

namespace Fault

/-- Whether a path starts at a place in a list. -/
def startsAtIndex (path : String) : Bool := path.toList.head? == some '['

/-- The fault of a field's condition, raised from that condition's own fault. -/
def ofField (field : Value) (cause : ConditionFault) : Fault :=
  raised (.located field none cause (some cause))

/-- A fault of a condition as it is reported for its field alone. -/
def withField (field : Value) : Fault → Fault
  | .condition cause => ofField field cause
  | fault => fault

/-- A fault as it is reported for a field: a fault further down keeps its field, and its path is
extended by the list that it starts in.  It is raised anew from its cause. -/
def atField (field : Value) : Fault → Fault
  | .condition (.located inner path cause _) =>
    let inside := (ConditionFault.position inner path).toText
    raised (.located inner
      (some (if startsAtIndex inside then field.toText ++ inside else inside)) cause (some cause))
  | .condition cause => ofField field cause
  | fault => fault

/-- A fault as it is reported for an element of a logical list. -/
def atIndex (index : Nat) : Fault → Fault
  | .condition (.located inner path cause _) =>
    raised (.located inner
      (some ("[" ++ toString index ++ "]." ++ (ConditionFault.position inner path).toText)) cause
      (some cause))
  | fault => fault

end Fault

namespace FilterTree

def notMapping (tree : Value) : ConditionFault :=
  .conditionShape tree (some ("Filter must be a mapping, got " ++ tree.typeName))

def notList (key : LogicalKey) (subtrees : Value) : ConditionFault :=
  .conditionShape subtrees (some ("'" ++ key.token ++ "' must be a list of filter objects"))

/-- The fault of an element of a logical list that is no mapping. -/
def notElement (key : LogicalKey) (index : Nat) (subtree : Value) : ConditionFault :=
  .conditionShape subtree (some ("'" ++ key.token ++ "[" ++ toString index
    ++ "]' must be a filter object, got " ++ subtree.typeName))

variable {σ : Type} [Sink σ] (registry : Registry) (base : Value)

/-- One condition of a tree, compiled and added to the sink. -/
def applyLeaf (path : Path) (join : Join) (field condition : Value) : Composing σ Unit := do
  match resolveAlias field base with
  | .error fault => throw fault
  | .ok fieldAlias =>
    let f ← Composing.onIds (compileFragment registry (.text fieldAlias) condition)
    Composing.onSink (Clause.addTo path join f.query f.parameters)

mutual

/-- The entries of a tree, in order. -/
def applyEntries (path : Path) (join : Join) : List (Value × Value) → Composing σ Unit
  | [] => pure ()
  | (field, condition) :: rest => do
    Composing.reporting (Fault.atField field)
      (match logicalKey? field with
      | some key => applyGroup path join key condition
      | none => applyLeaf registry base path join field condition)
    applyEntries path join rest
termination_by structural entries => entries

/-- The value under a logical key, as a bracketed group. -/
def applyGroup (path : Path) (join : Join) (key : LogicalKey) : Value → Composing σ Unit
  | .list subtrees => do
    let inner ← Composing.onSink (Clause.openIn path join)
    applySubtrees inner key 0 subtrees
  | .tuple subtrees => do
    let inner ← Composing.onSink (Clause.openIn path join)
    applySubtrees inner key 0 subtrees
  | subtrees => throw (.condition (notList key subtrees))
termination_by structural subtrees => subtrees

/-- The trees of a logical list from an index on. -/
def applySubtrees (path : Path) (key : LogicalKey) (index : Nat) :
    List Value → Composing σ Unit
  | [] => pure ()
  | subtree :: rest => do
    applySubtree path key index subtree
    applySubtrees path key (index + 1) rest
termination_by structural subtrees => subtrees

/-- One tree of a logical list. -/
def applySubtree (path : Path) (key : LogicalKey) (index : Nat) : Value → Composing σ Unit
  | .dict entries =>
    Composing.reporting (Fault.atIndex index) (applyEntries path key.join entries)
  | subtree => throw (.condition (notElement key index subtree))
termination_by structural subtree => subtree

end

/-- A tree, composed into the group at a path. -/
def applyTree (path : Path) (join : Join) : Value → Composing σ Unit
  | .dict entries => applyEntries registry base path join entries
  | tree => throw (.condition (notMapping tree))

/-- A tree composed into an empty builder, and the identifiers that are left. -/
def stage (join : Join) (tree : Value) (ids : IdSource) :
    Except Fault Builder × IdSource :=
  match applyTree registry base [] join tree ⟨Builder.empty, ids⟩ with
  | .ok () s => (.ok s.sink, s.ids)
  | .error fault s => (.error fault, s.ids)

/-- A tree joined to the group at a path.  The tree is composed as a whole before anything reaches
the sink. -/
def apply (path : Path) (join : Value) (tree : Value) : Composing σ Unit := fun s ↦
  match Clause.joinOf join with
  | .error fault => .error fault s
  | .ok join =>
    match stage registry base join tree s.ids with
    -- Identifiers that a tree has drawn are gone even when it fails.
    | (.error fault, ids) => .error fault { s with ids }
    | (.ok staged, ids) => Composing.onSink (Clause.replay path staged.items) { s with ids }

end FilterTree

/-- One condition on a field of an alias, without relations and logical keys.  The join is read
after the condition has been compiled. -/
def applyCondition {σ : Type} [Sink σ] (registry : Registry) (path : Path)
    (base field condition join : Value) : Composing σ Unit := do
  let f ← Composing.onIds (compileFragment registry (.text (baseAlias field base)) condition)
  match Clause.joinOf join with
  | .error fault => throw fault
  | .ok join => Composing.onSink (Clause.addTo path join f.query f.parameters)

/-- The entries of a flat filter, each joined with `AND`. -/
def applyFlatEntries {σ : Type} [Sink σ] (registry : Registry) (path : Path) (base : Value) :
    List (Value × Value) → Composing σ Unit
  | [] => pure ()
  | (field, condition) :: rest => do
    applyCondition registry path base field condition (.text Join.and.keyword)
    applyFlatEntries registry path base rest

/-- A flat filter, whose keys are fields and nothing else. -/
def applyFilters {σ : Type} [Sink σ] (registry : Registry) (path : Path) (base : Value) :
    (filters : Value) → Composing σ Unit
  | .dict entries => applyFlatEntries registry path base entries
  | filters => throw (.noEntries filters)

end Criteria
