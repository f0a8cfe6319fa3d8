import Criteria.Proofs.Failure
import Criteria.Proofs.Jobs

/-!
# What is added to a builder

A step on a builder may fail midway, and what it has done by then stays.  Whether it fails or not, a
step only ever adds items at its place whose names are new, and binds their parameters.
-/

namespace Criteria

namespace Clause

/-! ## Growing -/

/-- A builder with items added at a path, whose names were all different and not bound yet. -/
def Builder.Grows (path : Path) (b b' : Builder) : Prop :=
  ∃ items, Bindable b.bound (Item.contents items) ∧
    (∀ f ∈ Item.contents items, (f.parameters.map (·.1)).Nodup) ∧ b' = b.extend path items

namespace Builder.Grows

variable {path : Path} {b b' b'' : Builder}

theorem refl (path : Path) (b : Builder) : b.Grows path b :=
  ⟨[], trivial, nofun, (extend_nil path b).symm⟩

theorem trans (h : b.Grows path b') (h' : b'.Grows path b'') : b.Grows path b'' := by
  obtain ⟨items, hbind, hnodup, rfl⟩ := h
  obtain ⟨others, hbind', hnodup', rfl⟩ := h'
  refine ⟨items ++ others, ?_, ?_, extend_extend path items others b⟩
  · rw [Item.contents_append, bindable_append]
    exact ⟨hbind, hbind'⟩
  · intro f hf
    rw [Item.contents_append, List.mem_append] at hf
    exact hf.elim (hnodup f) (hnodup' f)

theorem clause {f : Fragment} (hbound : ∀ p ∈ f.parameters, b.bound.binds p.1 = false)
    (hnodup : (f.parameters.map (·.1)).Nodup) (j : Join) :
    b.Grows path (b.extend path [.clause j f]) := by
  refine ⟨[.clause j f], ⟨hbound, trivial⟩, fun g hg ↦ ?_, rfl⟩
  obtain rfl : g = f := by simpa [Item.contents, Item.contentsOf] using hg
  exact hnodup

theorem openGroup (path : Path) (j : Join) (b : Builder) :
    b.Grows path ⟨(Item.openAt path j b.items).2, b.bound⟩ := by
  refine ⟨[.group j []], trivial, nofun, ?_⟩
  rw [Item.openAt, Item.appendAt_eq_extendAt]
  simp [Builder.extend, parametersOf, Item.contents, Item.contentsOf]

/-- A replay adds its items, or those in front of the clause that it fails at. -/
theorem replay {items : List (Item Fragment)}
    (hnodup : ∀ f ∈ Item.contents items, (f.parameters.map (·.1)).Nodup) (path : Path)
    (b : Builder) : b.Grows path (stateAfter (Clause.replay path items b)) := by
  cases hrun : Clause.replay path items b with
  | ok _ b' =>
      obtain ⟨hbind, rfl⟩ := Builder.replay_eq_ok_iff.mp hrun
      exact ⟨items, hbind, hnodup, rfl⟩
  | error fault b' =>
      obtain ⟨f, front, name, hfront, hbind, -, -, rfl⟩ := Builder.replay_eq_error_iff.mp hrun
      obtain ⟨others, hothers⟩ := hfront.contents_eq
      exact ⟨front, hbind, fun g hg ↦ hnodup g (hothers ▸ List.mem_append_left _ hg), rfl⟩

theorem addClauseBy {join : Value} {j : Join} (hjoin : joinOf join = .ok j) (path : Path)
    (query : String) {parameters : Parameters} (hnodup : (parameters.map (·.1)).Nodup)
    (b : Builder) :
    b.Grows path (stateAfter (Builder.addClauseBy path join query parameters b)) := by
  cases hrun : Builder.addClauseBy path join query parameters b with
  | ok _ b' =>
      obtain ⟨k, -, hbind, rfl⟩ := Request.addClauseBy_builder hrun
      exact clause (f := ⟨query, parameters⟩) hbind.1 hnodup k
  | error fault b' =>
      -- With a join that can be read the only fault is a name that is bound.
      simp only [Builder.addClauseBy, Builder.bind, hjoin] at hrun
      cases hconflict : b.conflict? parameters with
      | none => simp [hconflict] at hrun
      | some name =>
          simp only [hconflict, EStateM.Result.error.injEq] at hrun
          exact hrun.2 ▸ refl path b

end Builder.Grows

end Clause

/-! ## Steps -/

open Clause (Builder Item Path joinOf openIn replay)

/-- A step that only adds to the builder at a path, whether it fails or not. -/
def AddsAt {α : Type} (path : Path) (step : Composing Builder α) : Prop :=
  ∀ c : Composition Builder, c.sink.Grows path (stateAfter (step c)).sink

namespace AddsAt

variable {α β : Type} {path : Path}

theorem bind {x : Composing Builder α} {f : α → Composing Builder β} (hx : AddsAt path x)
    (hf : ∀ a c c', x c = .ok a c' → AddsAt path (f a)) : AddsAt path (x >>= f) := by
  intro c
  have hfirst := hx c
  change c.sink.Grows path (stateAfter (EStateM.bind x f c)).sink
  rw [EStateM.bind]
  cases hrun : x c with
  | error fault c' =>
      rw [hrun] at hfirst
      exact hfirst
  | ok a c' =>
      rw [hrun] at hfirst
      exact hfirst.trans (hf a c c' hrun c')

theorem map {step : Composing Builder α} (h : AddsAt path step) (f : α → β) :
    AddsAt path (f <$> step) := by
  intro c
  have hc := h c
  change c.sink.Grows path (stateAfter (EStateM.map f step c)).sink
  rw [EStateM.map]
  cases hrun : step c with
  | error fault c' =>
      rw [hrun] at hc
      exact hc
  | ok a c' =>
      rw [hrun] at hc
      exact hc

theorem throw (path : Path) (fault : Fault) :
    AddsAt path (MonadExcept.throw fault : Composing Builder α) :=
  fun c ↦ .refl path c.sink

theorem pure (path : Path) (a : α) : AddsAt path (Pure.pure a : Composing Builder α) :=
  fun c ↦ .refl path c.sink

theorem onIds (path : Path) (step : Compiling α) :
    AddsAt path (Composing.onIds step : Composing Builder α) := by
  intro c
  rw [Composing.onIds]
  cases step c.ids <;> exact .refl path c.sink

theorem onSink {step : EStateM Fault Builder α}
    (h : ∀ b : Builder, b.Grows path (stateAfter (step b))) :
    AddsAt path (Composing.onSink step) := by
  intro c
  have hc := h c.sink
  rw [Composing.onSink]
  cases hrun : step c.sink with
  | error fault b =>
      rw [hrun] at hc
      exact hc
  | ok a b =>
      rw [hrun] at hc
      exact hc

theorem addTo {f : Fragment} (hnodup : (f.parameters.map (·.1)).Nodup) (path : Path) (j : Join) :
    AddsAt path (Composing.onSink (Clause.addTo path j f.query f.parameters)) := by
  refine onSink fun b ↦ ?_
  cases hrun : Clause.addTo path j f.query f.parameters b with
  | ok _ b' =>
      obtain ⟨hbound, rfl⟩ := Builder.addTo_eq_ok_iff.mp hrun
      exact .clause hbound hnodup j
  | error fault b' =>
      obtain ⟨_, -, -, rfl⟩ := Builder.addTo_eq_error_iff.mp hrun
      exact .refl path b'

end AddsAt

theorem nodup_names_of_compileFragment {registry : Registry} {fieldAlias condition : Value}
    {f : Fragment} {ids ids' : IdSource}
    (h : compileFragment registry fieldAlias condition ids = .ok f ids') :
    (f.parameters.map (·.1)).Nodup := by
  obtain ⟨-, a, -, hfragment, -⟩ := compileFragment_eq_ok_iff.mp h
  exact (a.areNamed hfragment).nodup

/-- A compiled condition and a step that adds its clause. -/
theorem addsAt_compileFragment {registry : Registry} {fieldAlias condition : Value} {path : Path}
    {add : Fragment → Composing Builder Unit}
    (hadd : ∀ f : Fragment, (f.parameters.map (·.1)).Nodup → AddsAt path (add f)) :
    AddsAt path (Composing.onIds (compileFragment registry fieldAlias condition) >>= add) := by
  refine (AddsAt.onIds path _).bind fun f c c' hrun ↦ hadd f ?_
  obtain ⟨_, hcompile, -⟩ := Composing.onIds_eq_ok_iff.mp hrun
  exact nodup_names_of_compileFragment hcompile

theorem addsAt_applyCondition (registry : Registry) (path : Path)
    (base field condition join : Value) :
    AddsAt path (applyCondition registry path base field condition join) := by
  apply addsAt_compileFragment
  intro f hnodup
  cases hjoin : joinOf join with
  | error fault => exact AddsAt.throw path fault
  | ok j => exact AddsAt.addTo hnodup path j

theorem addsAt_applyFlatEntries (registry : Registry) (path : Path) (base : Value)
    (entries : List (Value × Value)) :
    AddsAt path (applyFlatEntries registry path base entries) := by
  induction entries with
  | nil => exact AddsAt.pure path ()
  | cons entry rest ih =>
      obtain ⟨field, condition⟩ := entry
      exact (addsAt_applyCondition registry path base field condition _).bind fun _ _ _ _ ↦ ih

theorem addsAt_applyFilters (registry : Registry) (path : Path) (base filters : Value) :
    AddsAt path (applyFilters registry path base filters) := by
  cases filters with
  | dict entries => exact addsAt_applyFlatEntries registry path base entries
  | _ => exact AddsAt.throw path _

/-- A tree is added by a replay of what it composes to, or not at all. -/
theorem addsAt_apply (registry : Registry) (path : Path) (base join tree : Value) :
    AddsAt path (FilterTree.apply registry base path join tree) := by
  rintro ⟨b, ids⟩
  have hreplay : ∀ {j entries items ids'},
      FilterTree.Composes registry base j entries ids items ids' →
      b.Grows path (stateAfter (replay path items b)) := fun hitems ↦
    .replay (hitems.forall_mem_contents fun hfragment ↦ (Admitted.areNamed hfragment).nodup) path b
  cases hrun : FilterTree.apply registry base path join tree ⟨b, ids⟩ with
  | ok _ c =>
      obtain ⟨j, entries, items, -, -, hitems, -, hsink⟩ := FilterTree.apply_eq_ok_iff.mp hrun
      have hgrows := hreplay hitems
      rwa [hsink] at hgrows
  | error fault c =>
      rcases FilterTree.apply_eq_error hrun with
        hsame | ⟨j, entries, items, -, -, hitems, -, hsink⟩
      · exact hsame ▸ .refl path b
      · have hgrows := hreplay hitems
        rwa [hsink] at hgrows

end Criteria
