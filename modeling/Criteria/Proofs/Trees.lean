import Criteria.FilterTree

/-!
# Filter trees as entries

The trees of a logical list are joined in the same way as the entries of each of them, so such a
list is as good as one tree with all their entries.  Induction on a filter tree goes to the entries
that follow, and from a logical key to the entries of the trees listed under it.
-/

namespace Criteria.FilterTree

/-- A logical value lists trees, each given by its entries. -/
def Lists (v : Value) (trees : List (List (Value × Value))) : Prop :=
  v = .list (trees.map .dict) ∨ v = .tuple (trees.map .dict)

theorem sizeOf_append (entries others : List (Value × Value)) :
    sizeOf (entries ++ others) + 1 = sizeOf entries + sizeOf others := by
  induction entries with
  | nil => simp; omega
  | cons entry rest ih => simp only [List.cons_append, List.cons.sizeOf_spec]; omega

theorem sizeOf_flatten_le (trees : List (List (Value × Value))) :
    sizeOf trees.flatten ≤ sizeOf (trees.map Value.dict) := by
  induction trees with
  | nil => simp
  | cons tree trees ih =>
      have happend := sizeOf_append tree trees.flatten
      simp only [List.flatten_cons, List.map_cons, List.cons.sizeOf_spec, Value.dict.sizeOf_spec]
      omega

theorem Lists.sizeOf_lt {v : Value} {trees : List (List (Value × Value))} (h : Lists v trees) :
    sizeOf trees.flatten < sizeOf v := by
  have hle := sizeOf_flatten_le trees
  rcases h with rfl | rfl
  · rw [Value.list.sizeOf_spec]
    omega
  · rw [Value.tuple.sizeOf_spec]
    omega

/-- Induction on the entries of a filter tree and into the trees under logical keys. -/
theorem entries_induction {motive : List (Value × Value) → Prop} (nil : motive [])
    (leaf : ∀ field condition rest, logicalKey? field = none → motive rest →
      motive ((field, condition) :: rest))
    (group : ∀ field condition rest key, logicalKey? field = some key →
      (∀ trees, Lists condition trees → motive trees.flatten) → motive rest →
      motive ((field, condition) :: rest))
    (entries : List (Value × Value)) : motive entries := by
  cases entries with
  | nil => exact nil
  | cons entry rest =>
      obtain ⟨field, condition⟩ := entry
      have hrest := entries_induction nil leaf group rest
      cases hkey : logicalKey? field with
      | none => exact leaf field condition rest hkey hrest
      | some key =>
          apply group field condition rest key hkey _ hrest
          intro trees htrees
          have hlt := htrees.sizeOf_lt
          exact entries_induction nil leaf group trees.flatten
termination_by sizeOf entries
decreasing_by
  · simp only [List.cons.sizeOf_spec]
    omega
  · simp only [List.cons.sizeOf_spec, Prod.mk.sizeOf_spec]
    omega

/-! ## Leaves -/

mutual

/-- The fields and conditions at the leaves of entries, in depth-first order. -/
def entryLeaves : List (Value × Value) → List (Value × Value)
  | [] => []
  | (field, condition) :: rest =>
    match logicalKey? field with
    | some _ => listLeaves condition ++ entryLeaves rest
    | none => (field, condition) :: entryLeaves rest
termination_by structural entries => entries

/-- The leaves of the trees that a logical value lists. -/
def listLeaves : Value → List (Value × Value)
  | .list subtrees => subtreesLeaves subtrees
  | .tuple subtrees => subtreesLeaves subtrees
  | _ => []
termination_by structural v => v

/-- The leaves of several trees. -/
def subtreesLeaves : List Value → List (Value × Value)
  | [] => []
  | subtree :: rest => leaves subtree ++ subtreesLeaves rest
termination_by structural subtrees => subtrees

/-- The leaves of a tree. -/
def leaves : Value → List (Value × Value)
  | .dict entries => entryLeaves entries
  | _ => []
termination_by structural tree => tree

end

theorem entryLeaves_append (entries others : List (Value × Value)) :
    entryLeaves (entries ++ others) = entryLeaves entries ++ entryLeaves others := by
  induction entries with
  | nil => rfl
  | cons entry rest ih =>
      obtain ⟨field, condition⟩ := entry
      simp only [List.cons_append, entryLeaves, ih]
      cases logicalKey? field <;> simp

theorem Lists.listLeaves {v : Value} {trees : List (List (Value × Value))} (h : Lists v trees) :
    listLeaves v = entryLeaves trees.flatten := by
  have hsubtrees : subtreesLeaves (trees.map .dict) = entryLeaves trees.flatten := by
    clear h
    induction trees with
    | nil => rfl
    | cons tree trees ih =>
        rw [List.map_cons, subtreesLeaves, ih, List.flatten_cons, entryLeaves_append, leaves]
  rcases h with rfl | rfl <;> exact hsubtrees

theorem entryLeaves_leaf {field : Value} (h : logicalKey? field = none) (condition : Value)
    (rest : List (Value × Value)) :
    entryLeaves ((field, condition) :: rest) = (field, condition) :: entryLeaves rest := by
  simp [entryLeaves, h]

theorem entryLeaves_group {field condition : Value} {key : LogicalKey}
    {trees : List (List (Value × Value))} (h : logicalKey? field = some key)
    (htrees : Lists condition trees) (rest : List (Value × Value)) :
    entryLeaves ((field, condition) :: rest) =
      entryLeaves trees.flatten ++ entryLeaves rest := by
  simp [entryLeaves, h, htrees.listLeaves]

end Criteria.FilterTree
