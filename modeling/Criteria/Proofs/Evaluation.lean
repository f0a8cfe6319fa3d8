import Criteria.Memory.Filter
import Criteria.Proofs.Trees

/-!
# Evaluating entries

Entries are evaluated one after the other, each joined to those before it.  A join is associative
also where some entries count for nothing, so it does not matter whether the trees of a logical list
are evaluated one by one or as one tree with all their entries.
-/

namespace Criteria.Memory

open FilterTree (Lists entryLeaves entries_induction entryLeaves_leaf entryLeaves_group)

variable {compiler : Criteria.Registry} {r : Registry} {candidate : Candidate}

/-! ## Joining -/

/-- What a truth value that may be absent comes to behind those before it. -/
def merged (join : Join) (before : Option Bool) : Option Bool → Option Bool
  | none => before
  | some value => joined join before value

@[simp] theorem merged_none (join : Join) (inner : Option Bool) :
    merged join none inner = inner := by
  cases inner <;> rfl

theorem merged_merged (join : Join) (first second third : Option Bool) :
    merged join (merged join first second) third =
      merged join first (merged join second third) := by
  have hassoc : ∀ a b c : Bool, join.apply (join.apply a b) c = join.apply a (join.apply b c) := by
    intro a b c
    cases join
    · exact Bool.and_assoc a b c
    · exact Bool.or_assoc a b c
  cases third with
  | none => rfl
  | some c =>
      cases second with
      | none => rfl
      | some b =>
          cases first with
          | none => rfl
          | some a => simp [merged, joined, hassoc]

/-! ## One entry at a time -/

variable (compiler r candidate) in
def evaluateEntry (field condition : Value) : Except Fault (Option Bool) :=
  match logicalKey? field with
  | some key => evaluateGroup compiler r candidate key condition
  | none => (evaluateLeaf compiler r candidate field condition).map some

theorem evaluateEntries_cons (join : Join) (before : Option Bool) (field condition : Value)
    (rest : List (Value × Value)) :
    evaluateEntries compiler r candidate join before ((field, condition) :: rest) =
      (evaluateEntry compiler r candidate field condition).bind fun value ↦
        evaluateEntries compiler r candidate join (merged join before value) rest := by
  rw [evaluateEntries, evaluateEntry]
  cases logicalKey? field with
  | none => cases evaluateLeaf compiler r candidate field condition <;> rfl
  | some key =>
      dsimp only
      cases evaluateGroup compiler r candidate key condition with
      | error fault => rfl
      | ok value => cases value <;> rfl

theorem evaluateEntries_cons_eq_ok_iff {join : Join} {before v : Option Bool}
    {field condition : Value} {rest : List (Value × Value)} :
    evaluateEntries compiler r candidate join before ((field, condition) :: rest) = .ok v ↔
      ∃ value, evaluateEntry compiler r candidate field condition = .ok value ∧
        evaluateEntries compiler r candidate join (merged join before value) rest = .ok v := by
  rw [evaluateEntries_cons]
  cases evaluateEntry compiler r candidate field condition with
  | error fault => simp [Except.bind]
  | ok value => simp [Except.bind]

theorem evaluateEntries_append (join : Join) (before : Option Bool)
    (entries others : List (Value × Value)) :
    evaluateEntries compiler r candidate join before (entries ++ others) =
      (evaluateEntries compiler r candidate join before entries).bind fun middle ↦
        evaluateEntries compiler r candidate join middle others := by
  induction entries generalizing before with
  | nil => rfl
  | cons entry rest ih =>
      obtain ⟨field, condition⟩ := entry
      rw [List.cons_append, evaluateEntries_cons, evaluateEntries_cons]
      cases evaluateEntry compiler r candidate field condition with
      | error fault => rfl
      | ok value => exact ih _

/-- What stands before entries can be joined to their own value. -/
theorem evaluateEntries_eq_map_merged (join : Join) (before : Option Bool)
    (entries : List (Value × Value)) :
    evaluateEntries compiler r candidate join before entries =
      (evaluateEntries compiler r candidate join none entries).map (merged join before) := by
  induction entries generalizing before with
  | nil => rfl
  | cons entry rest ih =>
      obtain ⟨field, condition⟩ := entry
      rw [evaluateEntries_cons, evaluateEntries_cons]
      cases evaluateEntry compiler r candidate field condition with
      | error fault => rfl
      | ok value =>
          change evaluateEntries compiler r candidate join (merged join before value) rest =
            (evaluateEntries compiler r candidate join (merged join none value) rest).map
              (merged join before)
          rw [ih (merged join before value), ih (merged join none value), merged_none]
          cases evaluateEntries compiler r candidate join none rest with
          | error fault => rfl
          | ok after => exact congrArg Except.ok (merged_merged join before value after)

/-! ## Groups -/

theorem evaluateSubtrees_cons (key : LogicalKey) (before : Option Bool) (subtree : Value)
    (rest : List Value) :
    evaluateSubtrees compiler r candidate key before (subtree :: rest) =
      (evaluateSubtree compiler r candidate key.join subtree).bind fun value ↦
        evaluateSubtrees compiler r candidate key (merged key.join before value) rest := by
  rw [evaluateSubtrees]
  cases evaluateSubtree compiler r candidate key.join subtree with
  | error fault => rfl
  | ok value => cases value <;> rfl

/-- The trees of a logical list are evaluated like one tree with all their entries. -/
theorem evaluateSubtrees_eq (key : LogicalKey) (before : Option Bool)
    (trees : List (List (Value × Value))) :
    evaluateSubtrees compiler r candidate key before (trees.map .dict) =
      evaluateEntries compiler r candidate key.join before trees.flatten := by
  induction trees generalizing before with
  | nil => rfl
  | cons tree trees ih =>
      rw [List.map_cons, evaluateSubtrees, evaluateSubtree, List.flatten_cons,
        evaluateEntries_append, evaluateEntries_eq_map_merged _ before]
      cases evaluateEntries compiler r candidate key.join none tree with
      | error fault => rfl
      | ok value =>
          cases value with
          | none => exact ih before
          | some b => exact ih (joined key.join before b)

theorem exists_trees_of_evaluateSubtrees {key : LogicalKey} {before v : Option Bool}
    {subtrees : List Value}
    (h : evaluateSubtrees compiler r candidate key before subtrees = .ok v) :
    ∃ trees : List (List (Value × Value)), subtrees = trees.map .dict := by
  induction subtrees generalizing before with
  | nil => exact ⟨[], rfl⟩
  | cons subtree rest ih =>
      cases subtree with
      | dict entries =>
          rw [evaluateSubtrees] at h
          cases hfirst : evaluateSubtree compiler r candidate key.join (.dict entries) with
          | error fault => simp [hfirst] at h
          | ok value =>
              rw [hfirst] at h
              obtain ⟨trees, htrees⟩ : ∃ trees : List (List (Value × Value)),
                  rest = trees.map .dict := by
                cases value with
                | none => exact ih h
                | some b => exact ih h
              exact ⟨entries :: trees, by rw [htrees]; rfl⟩
      | _ => simp [evaluateSubtrees, evaluateSubtree] at h

theorem evaluateGroup_of_lists {condition : Value} {trees : List (List (Value × Value))}
    (h : Lists condition trees) (key : LogicalKey) :
    evaluateGroup compiler r candidate key condition =
      evaluateEntries compiler r candidate key.join none trees.flatten := by
  rcases h with rfl | rfl
  · exact evaluateSubtrees_eq key none trees
  · exact evaluateSubtrees_eq key none trees

theorem exists_lists_of_evaluateGroup {key : LogicalKey} {condition : Value} {v : Option Bool}
    (h : evaluateGroup compiler r candidate key condition = .ok v) :
    ∃ trees, Lists condition trees := by
  cases condition with
  | list subtrees =>
      obtain ⟨trees, rfl⟩ := exists_trees_of_evaluateSubtrees h
      exact ⟨trees, Or.inl rfl⟩
  | tuple subtrees =>
      obtain ⟨trees, rfl⟩ := exists_trees_of_evaluateSubtrees h
      exact ⟨trees, Or.inr rfl⟩
  | _ => simp [evaluateGroup] at h

/-! ## Leaves -/

theorem evaluateEntry_leaf {field : Value} (hkey : logicalKey? field = none) (condition : Value) :
    evaluateEntry compiler r candidate field condition =
      (evaluateLeaf compiler r candidate field condition).map some := by
  rw [evaluateEntry, hkey]

theorem evaluateEntry_group {field condition : Value} {key : LogicalKey}
    {trees : List (List (Value × Value))} (hkey : logicalKey? field = some key)
    (htrees : Lists condition trees) : evaluateEntry compiler r candidate field condition =
      evaluateEntries compiler r candidate key.join none trees.flatten := by
  rw [evaluateEntry, hkey]
  exact evaluateGroup_of_lists htrees key

/-- A condition that can be evaluated has been admitted, and its field is a name. -/
theorem admission_of_evaluateLeaf {field condition : Value} {v : Bool}
    (h : evaluateLeaf compiler r candidate field condition = .ok v) :
    (∃ a, admission compiler condition = .ok a) ∧ ∃ s, field = .text s := by
  rw [evaluateLeaf] at h
  cases hadmitted : admission compiler condition with
  | error fault => simp [hadmitted] at h
  | ok a =>
      refine ⟨⟨a, rfl⟩, ?_⟩
      cases field with
      | text s => exact ⟨s, rfl⟩
      | _ => simp [hadmitted, fieldPath] at h

/-- Entries can only be evaluated when each of their leaves can. -/
theorem evaluateLeaf_of_evaluateEntries {join : Join} {before v : Option Bool}
    {entries : List (Value × Value)}
    (h : evaluateEntries compiler r candidate join before entries = .ok v) :
    ∀ leaf ∈ entryLeaves entries, ∃ value,
      evaluateLeaf compiler r candidate leaf.1 leaf.2 = .ok value := by
  induction entries using entries_induction generalizing join before v with
  | nil => simp [entryLeaves]
  | leaf field condition rest hkey ih =>
      obtain ⟨first, hfirst, hrest⟩ := evaluateEntries_cons_eq_ok_iff.mp h
      rw [evaluateEntry_leaf hkey] at hfirst
      obtain ⟨value, hvalue⟩ : ∃ value,
          evaluateLeaf compiler r candidate field condition = .ok value := by
        cases hleaf : evaluateLeaf compiler r candidate field condition with
        | error fault => simp [hleaf, Except.map] at hfirst
        | ok value => exact ⟨value, rfl⟩
      rw [entryLeaves_leaf hkey]
      intro leaf hleaf
      rcases List.mem_cons.mp hleaf with rfl | hleaf
      · exact ⟨value, hvalue⟩
      · exact ih hrest leaf hleaf
  | group field condition rest key hkey ihTrees ih =>
      obtain ⟨first, hfirst, hrest⟩ := evaluateEntries_cons_eq_ok_iff.mp h
      obtain ⟨trees, htrees⟩ : ∃ trees, Lists condition trees := by
        rw [evaluateEntry, hkey] at hfirst
        exact exists_lists_of_evaluateGroup hfirst
      rw [evaluateEntry_group hkey htrees] at hfirst
      rw [entryLeaves_group hkey htrees]
      intro leaf hleaf
      rcases List.mem_append.mp hleaf with hleaf | hleaf
      · exact ihTrees trees htrees hfirst leaf hleaf
      · exact ih hrest leaf hleaf

end Criteria.Memory
