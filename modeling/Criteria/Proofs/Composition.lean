import Criteria.Proofs.Places
import Criteria.Proofs.Trees

/-!
# What a filter tree composes to

Composing interleaves compiling conditions with calls on a sink.  When it succeeds it comes to the
same as compiling the whole tree into items and adding these items to the sink in order, whatever
the sink is.  A tree reaches its sink by way of an empty builder, which only has to accept the names
of the tree's own parameters.
-/

namespace Criteria

theorem throw_apply {ε σ α : Type} (fault : ε) (s : σ) :
    (throw fault : EStateM ε σ α) s = .error fault s := rfl

theorem bind_eq_ok_iff {ε σ α β : Type} {x : EStateM ε σ α} {f : α → EStateM ε σ β} {s s' : σ}
    {b : β} : (x >>= f) s = .ok b s' ↔ ∃ a t, x s = .ok a t ∧ f a t = .ok b s' := by
  change EStateM.bind x f s = .ok b s' ↔ _
  rw [EStateM.bind]
  cases x s with
  | error fault t => simp
  | ok a t =>
      constructor
      · intro h
        exact ⟨a, t, rfl, h⟩
      · rintro ⟨_, _, ⟨⟩, h⟩
        exact h

theorem bind_eq_error_iff {ε σ α β : Type} {x : EStateM ε σ α} {f : α → EStateM ε σ β} {s s' : σ}
    {fault : ε} : (x >>= f) s = .error fault s' ↔
      x s = .error fault s' ∨ ∃ a t, x s = .ok a t ∧ f a t = .error fault s' := by
  change EStateM.bind x f s = .error fault s' ↔ _
  rw [EStateM.bind]
  cases x s with
  | error other t => simp
  | ok a t =>
      constructor
      · intro h
        exact Or.inr ⟨a, t, rfl, h⟩
      · rintro (h | ⟨_, _, ⟨⟩, h⟩)
        · cases h
        · exact h

theorem bind_unit_eq_ok_iff {ε σ β : Type} {x : EStateM ε σ Unit} {f : Unit → EStateM ε σ β}
    {s s' : σ} {b : β} : (x >>= f) s = .ok b s' ↔ ∃ t, x s = .ok () t ∧ f () t = .ok b s' := by
  rw [bind_eq_ok_iff]
  constructor
  · rintro ⟨_, t, hx, hf⟩
    exact ⟨t, hx, hf⟩
  · rintro ⟨t, hx, hf⟩
    exact ⟨(), t, hx, hf⟩

theorem map_eq_ok_iff {ε σ α β : Type} {x : EStateM ε σ α} {f : α → β} {s s' : σ} {b : β} :
    (f <$> x) s = .ok b s' ↔ ∃ a, x s = .ok a s' ∧ b = f a := by
  change EStateM.map f x s = .ok b s' ↔ _
  rw [EStateM.map]
  cases x s with
  | error fault t => simp
  | ok a t =>
      constructor
      · rintro ⟨⟩
        exact ⟨a, rfl, rfl⟩
      · rintro ⟨_, ⟨⟩, rfl⟩
        rfl

namespace Composing

variable {σ α : Type}

theorem reporting_eq_ok_iff {report : Fault → Fault} {step : Composing σ α} {a : α}
    {s s' : Composition σ} : reporting report step s = .ok a s' ↔ step s = .ok a s' := by
  rw [reporting]
  cases step s <;> simp

theorem onSink_eq_ok_iff {step : EStateM Fault σ α} {a : α} {s s' : Composition σ} :
    onSink step s = .ok a s' ↔ ∃ sink, step s.sink = .ok a sink ∧ s' = ⟨sink, s.ids⟩ := by
  rw [onSink]
  cases step s.sink with
  | error fault sink => simp
  | ok b sink =>
      constructor
      · rintro ⟨⟩
        exact ⟨sink, rfl, rfl⟩
      · rintro ⟨_, ⟨⟩, rfl⟩
        rfl

theorem onSink_eq_error_iff {step : EStateM Fault σ α} {fault : Fault} {s s' : Composition σ} :
    onSink step s = .error fault s' ↔
      ∃ sink, step s.sink = .error fault sink ∧ s' = ⟨sink, s.ids⟩ := by
  rw [onSink]
  cases step s.sink with
  | ok a sink => simp
  | error other sink =>
      constructor
      · rintro ⟨⟩
        exact ⟨sink, rfl, rfl⟩
      · rintro ⟨_, ⟨⟩, rfl⟩
        rfl

theorem onIds_eq_ok_iff {step : Compiling α} {a : α} {s s' : Composition σ} :
    onIds step s = .ok a s' ↔ ∃ ids, step s.ids = .ok a ids ∧ s' = ⟨s.sink, ids⟩ := by
  rw [onIds]
  cases step s.ids with
  | error fault ids => simp
  | ok b ids =>
      constructor
      · rintro ⟨⟩
        exact ⟨ids, rfl, rfl⟩
      · rintro ⟨_, ⟨⟩, rfl⟩
        rfl

end Composing

theorem Clause.replay_cons_eq_ok_iff {σ : Type} [Sink σ] {path : Path} {item : Item Fragment}
    {rest : List (Item Fragment)} {sink sink' : σ} :
    replay path (item :: rest) sink = .ok () sink' ↔
      ∃ middle, replayItem path item sink = .ok () middle ∧
        replay path rest middle = .ok () sink' := by
  rw [replay, bind_unit_eq_ok_iff]

theorem Clause.replay_cons_eq_error_iff {σ : Type} [Sink σ] {path : Path} {item : Item Fragment}
    {rest : List (Item Fragment)} {fault : Fault} {sink sink' : σ} :
    replay path (item :: rest) sink = .error fault sink' ↔
      replayItem path item sink = .error fault sink' ∨
      ∃ middle, replayItem path item sink = .ok () middle ∧
        replay path rest middle = .error fault sink' := by
  rw [replay, bind_eq_error_iff]
  apply or_congr Iff.rfl
  constructor
  · rintro ⟨_, middle, hitem, hrest⟩
    exact ⟨middle, hitem, hrest⟩
  · rintro ⟨middle, hitem, hrest⟩
    exact ⟨(), middle, hitem, hrest⟩

namespace FilterTree

open Clause (Path Sink Builder Item replay replay_cons_eq_ok_iff)

variable (registry : Registry) (base : Value)

/-- The fragment of one condition of a tree. -/
def leafFragment (field condition : Value) : Compiling Fragment := fun ids ↦
  match resolveAlias field base with
  | .error fault => .error fault ids
  | .ok fieldAlias => compileFragment registry (.text fieldAlias) condition ids

/-- What entries compose to: their items, and the sources of identifiers before and after.  A leaf
becomes a clause, and the trees under a logical key become one group. -/
inductive Composes : Join → List (Value × Value) → IdSource → List (Item Fragment) → IdSource →
    Prop where
  | nil {join : Join} {ids : IdSource} : Composes join [] ids [] ids
  | leaf {join : Join} {field condition : Value} {rest : List (Value × Value)}
      {ids middle ids' : IdSource} {f : Fragment} {items : List (Item Fragment)}
      (hkey : logicalKey? field = none)
      (hleaf : leafFragment registry base field condition ids = .ok f middle)
      (hrest : Composes join rest middle items ids') :
      Composes join ((field, condition) :: rest) ids (.clause join f :: items) ids'
  | group {join : Join} {field condition : Value} {rest : List (Value × Value)}
      {ids middle ids' : IdSource} {key : LogicalKey} {trees : List (List (Value × Value))}
      {inner items : List (Item Fragment)} (hkey : logicalKey? field = some key)
      (htrees : Lists condition trees)
      (hinner : Composes key.join trees.flatten ids inner middle)
      (hrest : Composes join rest middle items ids') :
      Composes join ((field, condition) :: rest) ids (.group join inner :: items) ids'

variable {registry base} {σ : Type} [Sink σ]

/-! ## One entry at a time -/

theorem applyLeaf_eq_ok_iff {path : Path} {join : Join} {field condition : Value}
    {s s' : Composition σ} :
    applyLeaf registry base path join field condition s = .ok () s' ↔
      ∃ f ids sink, leafFragment registry base field condition s.ids = .ok f ids ∧
        Clause.addTo path join f.query f.parameters s.sink = .ok () sink ∧ s' = ⟨sink, ids⟩ := by
  rw [applyLeaf, leafFragment]
  cases resolveAlias field base with
  | error fault => simp [throw_apply]
  | ok fieldAlias =>
      simp only [bind_eq_ok_iff, Composing.onIds_eq_ok_iff, Composing.onSink_eq_ok_iff]
      constructor
      · rintro ⟨f, t, ⟨ids, hcompile, rfl⟩, sink, hadd, rfl⟩
        exact ⟨f, ids, sink, hcompile, hadd, rfl⟩
      · rintro ⟨f, ids, sink, hcompile, hadd, rfl⟩
        exact ⟨f, _, ⟨ids, hcompile, rfl⟩, sink, hadd, rfl⟩

theorem applyEntries_cons_eq_ok_iff {path : Path} {join : Join} {field condition : Value}
    {rest : List (Value × Value)} {s s' : Composition σ} :
    applyEntries registry base path join ((field, condition) :: rest) s = .ok () s' ↔
      ∃ middle, (match logicalKey? field with
          | some key => applyGroup registry base path join key condition
          | none => applyLeaf registry base path join field condition) s = .ok () middle ∧
        applyEntries registry base path join rest middle = .ok () s' := by
  rw [applyEntries, bind_unit_eq_ok_iff]
  exact exists_congr fun middle ↦ and_congr Composing.reporting_eq_ok_iff Iff.rfl

theorem applyEntries_append_eq_ok_iff {path : Path} {join : Join}
    {entries others : List (Value × Value)} {s s' : Composition σ} :
    applyEntries registry base path join (entries ++ others) s = .ok () s' ↔
      ∃ middle, applyEntries registry base path join entries s = .ok () middle ∧
        applyEntries registry base path join others middle = .ok () s' := by
  induction entries generalizing s with
  | nil => simp [applyEntries, pure, EStateM.pure]
  | cons entry rest ih =>
      obtain ⟨field, condition⟩ := entry
      simp only [List.cons_append, applyEntries_cons_eq_ok_iff, ih]
      constructor
      · rintro ⟨first, hfirst, middle, hrest, hothers⟩
        exact ⟨middle, ⟨first, hfirst, hrest⟩, hothers⟩
      · rintro ⟨middle, ⟨first, hfirst, hrest⟩, hothers⟩
        exact ⟨first, hfirst, middle, hrest, hothers⟩

/-- The trees of a logical list are composed like one tree with all their entries. -/
theorem applySubtrees_eq_ok_iff {path : Path} {key : LogicalKey} {index : Nat}
    {subtrees : List Value} {s s' : Composition σ} :
    applySubtrees registry base path key index subtrees s = .ok () s' ↔
      ∃ trees : List (List (Value × Value)), subtrees = trees.map .dict ∧
        applyEntries registry base path key.join trees.flatten s = .ok () s' := by
  induction subtrees generalizing index s with
  | nil =>
      constructor
      · intro h
        exact ⟨[], rfl, h⟩
      · rintro ⟨trees, htrees, h⟩
        obtain rfl : trees = [] := by simpa using htrees.symm
        exact h
  | cons subtree rest ih =>
      rw [applySubtrees, bind_unit_eq_ok_iff]
      constructor
      · rintro ⟨middle, hfirst, hrest⟩
        obtain ⟨trees, rfl, htrees⟩ := ih.mp hrest
        cases subtree with
        | dict entries =>
            rw [applySubtree, Composing.reporting_eq_ok_iff] at hfirst
            exact ⟨entries :: trees, rfl,
              applyEntries_append_eq_ok_iff.mpr ⟨middle, hfirst, htrees⟩⟩
        | _ => simp [applySubtree, throw_apply] at hfirst
      · rintro ⟨trees, htrees, h⟩
        obtain _ | ⟨entries, trees⟩ := trees
        · simp at htrees
        · obtain ⟨rfl, rfl⟩ : subtree = .dict entries ∧ rest = trees.map .dict := by
            simpa using htrees
          obtain ⟨middle, hfirst, hrest⟩ := applyEntries_append_eq_ok_iff.mp h
          refine ⟨middle, ?_, ih.mpr ⟨trees, rfl, hrest⟩⟩
          rw [applySubtree, Composing.reporting_eq_ok_iff]
          exact hfirst

theorem applyGroup_eq_ok_iff {path : Path} {join : Join} {key : LogicalKey} {condition : Value}
    {s s' : Composition σ} :
    applyGroup registry base path join key condition s = .ok () s' ↔
      ∃ trees inner sink, Lists condition trees ∧
        Clause.openIn path join s.sink = .ok inner sink ∧
        applyEntries registry base inner key.join trees.flatten ⟨sink, s.ids⟩ = .ok () s' := by
  have hlist : ∀ subtrees : List Value, (Composing.onSink (Clause.openIn path join) >>= fun inner ↦
      applySubtrees registry base inner key 0 subtrees) s = .ok () s' ↔
      ∃ (trees : List (List (Value × Value))) (inner : Path) (sink : σ),
        subtrees = trees.map .dict ∧ Clause.openIn path join s.sink = .ok inner sink ∧
        applyEntries registry base inner key.join trees.flatten ⟨sink, s.ids⟩ = .ok () s' := by
    intro subtrees
    simp only [bind_eq_ok_iff, Composing.onSink_eq_ok_iff, applySubtrees_eq_ok_iff]
    constructor
    · rintro ⟨inner, t, ⟨sink, hopen, rfl⟩, trees, htrees, h⟩
      exact ⟨trees, inner, sink, htrees, hopen, h⟩
    · rintro ⟨trees, inner, sink, htrees, hopen, h⟩
      exact ⟨inner, _, ⟨sink, hopen, rfl⟩, trees, htrees, h⟩
  cases condition with
  | list subtrees => simpa [applyGroup, Lists] using hlist subtrees
  | tuple subtrees => simpa [applyGroup, Lists] using hlist subtrees
  | _ => simp [applyGroup, Lists, throw_apply]

/-! ## Whole trees -/

/-- Composing entries into a sink succeeds when the entries compose to items and these can be added
to the sink. -/
theorem applyEntries_eq_ok_iff {path : Path} {join : Join} {entries : List (Value × Value)}
    {sink sink' : σ} {ids ids' : IdSource} :
    applyEntries registry base path join entries ⟨sink, ids⟩ = .ok () ⟨sink', ids'⟩ ↔
      ∃ items, Composes registry base join entries ids items ids' ∧
        replay path items sink = .ok () sink' := by
  constructor
  · intro h
    induction entries using entries_induction generalizing path join sink sink' ids ids' with
    | nil =>
        obtain ⟨rfl, rfl⟩ : sink = sink' ∧ ids = ids' := by
          simpa [applyEntries, pure, EStateM.pure] using h
        exact ⟨[], .nil, rfl⟩
    | leaf field condition rest hkey ih =>
        rw [applyEntries_cons_eq_ok_iff] at h
        simp only [hkey] at h
        obtain ⟨middle, hfirst, hrest⟩ := h
        obtain ⟨f, next, added, hleaf, hadd, rfl⟩ := applyLeaf_eq_ok_iff.mp hfirst
        obtain ⟨items, hitems, hreplay⟩ := ih hrest
        exact ⟨.clause join f :: items, .leaf hkey hleaf hitems,
          replay_cons_eq_ok_iff.mpr ⟨added, hadd, hreplay⟩⟩
    | group field condition rest key hkey ihTrees ih =>
        rw [applyEntries_cons_eq_ok_iff] at h
        simp only [hkey] at h
        obtain ⟨⟨filled, next⟩, hfirst, hrest⟩ := h
        obtain ⟨trees, inner, opened, htrees, hopen, htree⟩ := applyGroup_eq_ok_iff.mp hfirst
        obtain ⟨held, hheld, hinner⟩ := ihTrees trees htrees htree
        obtain ⟨items, hitems, hreplay⟩ := ih hrest
        refine ⟨.group join held :: items, .group hkey htrees hheld hitems,
          replay_cons_eq_ok_iff.mpr ⟨filled, ?_, hreplay⟩⟩
        exact bind_eq_ok_iff.mpr ⟨inner, opened, hopen, hinner⟩
  · rintro ⟨items, hitems, hreplay⟩
    induction hitems generalizing path sink sink' with
    | nil =>
        obtain rfl : sink = sink' := by simpa [replay, pure, EStateM.pure] using hreplay
        rfl
    | @leaf join field condition rest ids next ids' f items hkey hleaf hrest ih =>
        obtain ⟨added, hadd, hreplay⟩ := replay_cons_eq_ok_iff.mp hreplay
        rw [applyEntries_cons_eq_ok_iff]
        simp only [hkey]
        exact ⟨⟨added, next⟩, applyLeaf_eq_ok_iff.mpr ⟨f, next, added, hleaf, hadd, rfl⟩,
          ih hreplay⟩
    | @group join field condition rest ids next ids' key trees held items hkey htrees hheld hrest
        ihTrees ih =>
        obtain ⟨filled, hgroup, hreplay⟩ := replay_cons_eq_ok_iff.mp hreplay
        obtain ⟨inner, opened, hopen, hinner⟩ := bind_eq_ok_iff.mp hgroup
        rw [applyEntries_cons_eq_ok_iff]
        simp only [hkey]
        exact ⟨⟨filled, next⟩,
          applyGroup_eq_ok_iff.mpr ⟨trees, inner, opened, htrees, hopen, ihTrees hinner⟩,
          ih hreplay⟩

end FilterTree

end Criteria
