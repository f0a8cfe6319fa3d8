import Criteria.Proofs.Guard

/-!
# Staging

A tree goes through an empty builder before it reaches its sink, so its names are looked at twice:
among themselves first, and among those of the sink afterwards.  A builder looks at both when the
tree is composed into it directly, and so the detour makes no difference to a tree that reaches a
builder.
-/

namespace Criteria.Clause

/-- What can be bound after some parameters can be bound after fewer of them. -/
theorem Bindable.anti {bound fewer : Parameters} {fragments : List Fragment}
    (h : Bindable bound fragments)
    (hfewer : ∀ name, bound.binds name = false → fewer.binds name = false) :
    Bindable fewer fragments := by
  induction fragments generalizing bound fewer with
  | nil => trivial
  | cons f rest ih =>
      obtain ⟨hnames, hrest⟩ := h
      refine ⟨fun p hp ↦ hfewer p.1 (hnames p hp), ih hrest fun name hname ↦ ?_⟩
      rw [binds_append, Bool.or_eq_false_iff] at hname ⊢
      exact ⟨hfewer name hname.1, hname.2⟩

/-- Names that do not clash with those of a builder do not clash among themselves. -/
theorem Bindable.alone {bound : Parameters} {fragments : List Fragment}
    (h : Bindable bound fragments) : Bindable [] fragments :=
  h.anti fun _ _ ↦ rfl

end Criteria.Clause

namespace Criteria.FilterTree

open Clause (Path Sink Builder Item replay)

variable {registry : Registry} {base : Value} {σ : Type} [Sink σ] {path : Path} {join : Join}
  {tree : Value} {sink sink' : σ} {ids ids' : IdSource}

theorem applyTree_eq_ok_iff :
    applyTree registry base path join tree ⟨sink, ids⟩ = .ok () ⟨sink', ids'⟩ ↔
      ∃ entries items, tree = .dict entries ∧ Composes registry base join entries ids items ids' ∧
        replay path items sink = .ok () sink' := by
  cases tree with
  | dict entries => simp [applyTree, applyEntries_eq_ok_iff]
  | _ => simp [applyTree, throw_apply]

/-- Whatever the sink is, a tree that reaches it by way of an empty builder can be composed into it
directly, and comes to the same. -/
theorem applyTree_eq_ok_of_apply
    (h : FilterTree.apply registry base path (.text join.keyword) tree ⟨sink, ids⟩ =
      .ok () ⟨sink', ids'⟩) :
    applyTree registry base path join tree ⟨sink, ids⟩ = .ok () ⟨sink', ids'⟩ := by
  obtain ⟨j, entries, items, hjoin, htree, hitems, -, hreplay⟩ := apply_eq_ok_iff.mp h
  obtain rfl : join = j := by simpa [Clause.joinOf_keyword] using hjoin
  exact applyTree_eq_ok_iff.mpr ⟨entries, items, htree, hitems, hreplay⟩

/-- A tree reaches a builder, at any of its groups, just when it can be composed into the builder
directly, and both leave the same builder behind, its items, its parameters in their order and with
them its text, and have drawn the same identifiers. -/
theorem apply_eq_ok_iff_applyTree_eq_ok (registry : Registry) (base : Value) (path : Path)
    (join : Join) (tree : Value) (b b' : Builder) (ids ids' : IdSource) :
    FilterTree.apply registry base path (.text join.keyword) tree ⟨b, ids⟩ = .ok () ⟨b', ids'⟩ ↔
      applyTree registry base path join tree ⟨b, ids⟩ = .ok () ⟨b', ids'⟩ := by
  refine ⟨applyTree_eq_ok_of_apply, fun h ↦ ?_⟩
  obtain ⟨entries, items, htree, hitems, hreplay⟩ := applyTree_eq_ok_iff.mp h
  -- The builder has looked at all names when the tree was composed into it.
  obtain ⟨hbind, -⟩ := Builder.replay_eq_ok_iff.mp hreplay
  exact apply_eq_ok_iff.mpr
    ⟨join, entries, items, Clause.joinOf_keyword join, htree, hitems, hbind.alone, hreplay⟩

end Criteria.FilterTree
