import Criteria.Proofs.Checks

/-!
# What a compiler accepts

A compiler accepts its language for a target that it knows and, for a query, under an alias that is
not blank.  Everything else it rejects at the first check that fails, before an identifier is drawn.
-/

namespace Criteria

/-- What the faults of a compiler show has a text: the target, the alias and the keys of the
condition. -/
structure IsShown (target fieldAlias condition : Value) : Prop where
  target : target.hasText = true
  fieldAlias : fieldAlias.hasText = true
  keys : condition.ShowsKeys

/-- What is compiled depends on the registry and the condition only by what is admitted. -/
theorem compile_congr {registry other : Registry} {condition condition' : Value}
    (h : admission registry condition = admission other condition') (target fieldAlias : Value) :
    compile registry target fieldAlias condition = compile other target fieldAlias condition' := by
  simp only [compile, compileFragment, compileFind, h]

section Compile

variable {registry : Registry} {target fieldAlias condition : Value} {ids : IdSource}

end Compile

end Criteria
