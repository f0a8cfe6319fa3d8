import Criteria.Binding
import Criteria.Clause.Item
import Criteria.Fault

/-!
# Sinks of clauses

A sink receives the clauses and groups that a filter tree is made of.  Adding a clause may fail,
and then the sink stays as it is; opening a group never fails.
-/

namespace Criteria.Clause

/-- Anything that collects clauses and groups. -/
class Sink (σ : Type) where
  /-- The sink with a clause at the end of the group at a path. -/
  addClause : Path → Join → (query : String) → Parameters → σ → Except Fault σ
  /-- The path of a group opened at the end of the group at a path, and the sink with it. -/
  openGroup : Path → Join → σ → Path × σ

/-- The join that a value names. -/
def joinOf (v : Value) : Except Fault Join :=
  match v with
  | .text s =>
    match Join.ofKeyword? s with
    | some j => .ok j
    | none => .error (.invalidJoin v)
  | _ => .error (.invalidJoin v)

variable {σ : Type} [Sink σ]

/-- A clause added to the sink that is the state. -/
def addTo (path : Path) (j : Join) (query : String) (parameters : Parameters) :
    EStateM Fault σ Unit := fun sink ↦
  match Sink.addClause path j query parameters sink with
  | .ok sink => .ok () sink
  | .error fault => .error fault sink

/-- A group opened in the sink that is the state. -/
def openIn (path : Path) (j : Join) : EStateM Fault σ Path := fun sink ↦
  match Sink.openGroup path j sink with
  | (inner, sink) => .ok inner sink

end Criteria.Clause
