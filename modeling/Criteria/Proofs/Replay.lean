import Criteria.Proofs.Calls
import Criteria.Proofs.Composition

/-!
# Replaying items

Items that are added again to a builder stand there as they were, behind the items that were there
before, provided that none of their names is bound yet.  In a where clause they stand as texts with
the same joins and the same nesting, whatever was there before.
-/

namespace Criteria.Clause

/-! ## Into a builder -/

/-- Fragments whose parameters can be bound one after the other: no name is bound already. -/
def Bindable : Parameters → List Fragment → Prop
  | _, [] => True
  | bound, f :: rest =>
    (∀ p ∈ f.parameters, bound.binds p.1 = false) ∧ Bindable (bound ++ f.parameters) rest

/-- The parameters of several fragments. -/
def parametersOf (fragments : List Fragment) : Parameters := fragments.flatMap (·.parameters)

theorem bindable_append {bound : Parameters} {fragments others : List Fragment} :
    Bindable bound (fragments ++ others) ↔
      Bindable bound fragments ∧ Bindable (bound ++ parametersOf fragments) others := by
  induction fragments generalizing bound with
  | nil => simp [Bindable, parametersOf]
  | cons f rest ih =>
      simp only [List.cons_append, Bindable, ih, parametersOf, List.flatMap_cons, and_assoc,
        List.append_assoc]

theorem binds_append (ps qs : Parameters) (name : String) :
    (ps ++ qs).binds name = (ps.binds name || qs.binds name) :=
  List.any_append

theorem Bindable.binds_eq_false {bound : Parameters} {fragments : List Fragment}
    (h : Bindable bound fragments) : ∀ p ∈ parametersOf fragments, bound.binds p.1 = false := by
  induction fragments generalizing bound with
  | nil => simp [parametersOf]
  | cons f rest ih =>
      intro p hp
      rw [parametersOf, List.flatMap_cons, List.mem_append] at hp
      rcases hp with hp | hp
      · exact h.1 p hp
      · have hrest : (bound ++ f.parameters).binds p.1 = false := ih h.2 p hp
        rw [binds_append, Bool.or_eq_false_iff] at hrest
        exact hrest.1

/-- Fragments that can be bound one after the other have different names throughout, when each of
them has. -/
theorem Bindable.nodup_names {bound : Parameters} {fragments : List Fragment}
    (h : Bindable bound fragments) (hown : ∀ f ∈ fragments, (f.parameters.map (·.1)).Nodup) :
    ((parametersOf fragments).map (·.1)).Nodup := by
  induction fragments generalizing bound with
  | nil => simp [parametersOf]
  | cons f rest ih =>
      obtain ⟨-, hrest⟩ := h
      have hnew := hrest.binds_eq_false
      have hothers := ih hrest fun g hg ↦ hown g (List.mem_cons_of_mem f hg)
      rw [parametersOf, List.flatMap_cons, List.map_append, List.nodup_append]
      refine ⟨hown f List.mem_cons_self, hothers, ?_⟩
      intro name hname other hother heq
      subst heq
      obtain ⟨p, hp, hpname⟩ := List.mem_map.mp hname
      obtain ⟨q, hq, rfl⟩ := List.mem_map.mp hother
      have hclash := hnew q hq
      rw [binds_append, Bool.or_eq_false_iff] at hclash
      have hbound : Parameters.binds f.parameters q.1 = true :=
        List.any_eq_true.mpr ⟨p, hp, by simp [hpname]⟩
      rw [hclash.2] at hbound
      cases hbound

theorem Builder.conflict?_eq_none_iff {b : Builder} {parameters : Parameters} :
    b.conflict? parameters = none ↔ ∀ p ∈ parameters, b.bound.binds p.1 = false := by
  simp [Builder.conflict?]

/-- The builder with items at the end of the group at a path, and their parameters bound. -/
def Builder.extend (path : Path) (items : List (Item Fragment)) (b : Builder) : Builder :=
  ⟨Item.extendAt path items b.items, b.bound ++ parametersOf (Item.contents items)⟩

theorem Builder.addTo_eq_ok_iff {path : Path} {j : Join} {f : Fragment} {b b' : Builder} :
    addTo path j f.query f.parameters b = .ok () b' ↔
      (∀ p ∈ f.parameters, b.bound.binds p.1 = false) ∧ b' = b.extend path [.clause j f] := by
  have hadd : Sink.addClause path j f.query f.parameters b =
      Builder.addClause path j f.query f.parameters b := rfl
  rw [← Builder.conflict?_eq_none_iff, addTo, hadd, Builder.addClause, Builder.bind]
  cases b.conflict? f.parameters with
  | some name => simp
  | none => simp [Builder.extend, Item.appendAt_eq_extendAt, parametersOf, Item.contents,
      Item.contentsOf, eq_comm]

theorem Builder.openIn_eq_ok_iff {path inner : Path} {j : Join} {b b' : Builder} :
    openIn path j b = .ok inner b' ↔ inner = (Item.openAt path j b.items).1 ∧
      b' = ⟨(Item.openAt path j b.items).2, b.bound⟩ := by
  change EStateM.Result.ok (Item.openAt path j b.items).1
    (⟨(Item.openAt path j b.items).2, b.bound⟩ : Builder) = _ ↔ _
  simp [eq_comm]

theorem Builder.extend_extend (path : Path) (items others : List (Item Fragment)) (b : Builder) :
    (b.extend path items).extend path others = b.extend path (items ++ others) := by
  simp [Builder.extend, Item.extendAt_extendAt, parametersOf]

/-- Replaying items into a builder succeeds when their parameters can be bound, and adds them as
they are. -/
theorem Builder.replay_eq_ok_iff {path : Path} {items : List (Item Fragment)} {b b' : Builder} :
    replay path items b = .ok () b' ↔
      Bindable b.bound (Item.contents items) ∧ b' = b.extend path items := by
  induction items using Item.sequence_induction generalizing path b b' with
  | nil =>
      simp only [replay, pure, EStateM.pure, EStateM.Result.ok.injEq, true_and, Item.contents,
        Bindable, Builder.extend, Item.extendAt_nil, parametersOf, List.flatMap_nil,
        List.append_nil]
      exact eq_comm
  | clause j f rest ih =>
      have hfront : b.extend path (.clause j f :: rest) =
          (b.extend path [.clause j f]).extend path rest := by
        rw [Builder.extend_extend, List.singleton_append]
      simp only [replay_cons_eq_ok_iff, replayItem, Builder.addTo_eq_ok_iff, ih, hfront,
        Item.contents, Item.contentsOf, List.singleton_append, Bindable]
      constructor
      · rintro ⟨_, ⟨hnames, rfl⟩, hrest, rfl⟩
        exact ⟨⟨hnames, by simpa [Builder.extend, parametersOf, Item.contents, Item.contentsOf]
          using hrest⟩, rfl⟩
      · rintro ⟨⟨hnames, hrest⟩, rfl⟩
        exact ⟨_, ⟨hnames, rfl⟩, by simpa [Builder.extend, parametersOf, Item.contents,
          Item.contentsOf] using hrest, rfl⟩
  | group j inner rest ihInner ih =>
      have hfront : b.extend path (.group j inner :: rest) =
          (b.extend path [.group j inner]).extend path rest := by
        rw [Builder.extend_extend, List.singleton_append]
      have hopened : Builder.extend (Item.openAt path j b.items).1 inner
          ⟨(Item.openAt path j b.items).2, b.bound⟩ = b.extend path [.group j inner] := by
        simp [Builder.extend, Item.extendAt_openAt, Item.contents, Item.contentsOf]
      have hbound : (b.extend path [.group j inner]).bound =
          b.bound ++ parametersOf (Item.contents inner) := by
        simp [Builder.extend, Item.contents, Item.contentsOf]
      simp only [replay_cons_eq_ok_iff, replayItem, bind_eq_ok_iff,
        Builder.openIn_eq_ok_iff, ihInner, ih, hfront, Item.contents, Item.contentsOf,
        bindable_append]
      constructor
      · rintro ⟨_, ⟨_, _, ⟨rfl, rfl⟩, hinner, rfl⟩, hrest, rfl⟩
        rw [hopened] at hrest ⊢
        exact ⟨⟨hinner, hbound ▸ hrest⟩, rfl⟩
      · rintro ⟨⟨hinner, hrest⟩, rfl⟩
        refine ⟨_, ⟨_, _, ⟨rfl, rfl⟩, hinner, rfl⟩, ?_⟩
        rw [hopened, hbound]
        exact ⟨hrest, rfl⟩

/-! ## Into a where clause -/

theorem addTo_whereClause {query : String} {parameters : Parameters} {t : Sql.BoundText}
    (h : Sql.BoundText.ofFragment query parameters = .ok t) (path : Path) (j : Join)
    (w : Sql.WhereClause) : addTo path j query parameters w =
      .ok () (⟨Item.extendAt path [.clause j t] w.items⟩ : Sql.WhereClause) := by
  have hadd : Sink.addClause path j query parameters w =
      Sql.WhereClause.addClause path j query parameters w := rfl
  simp only [addTo, hadd, Sql.WhereClause.addClause, h, Item.appendAt_eq_extendAt]

theorem openIn_whereClause (path : Path) (j : Join) (w : Sql.WhereClause) :
    openIn path j w = .ok (Item.openAt path j w.items).1
      (⟨(Item.openAt path j w.items).2⟩ : Sql.WhereClause) := rfl

/-- What can be replayed into one where clause can be replayed into any, at any path, and is added
to it with the same joins and the same nesting. -/
theorem replay_whereClause {path : Path} {items : List (Item Fragment)} {w w' : Sql.WhereClause}
    (h : replay path items w = .ok () w') :
    ∃ new, BoundAs items new ∧ ∀ (path : Path) (w : Sql.WhereClause),
      replay path items w = .ok () (⟨Item.extendAt path new w.items⟩ : Sql.WhereClause) := by
  induction items using Item.sequence_induction generalizing path w w' with
  | nil =>
      refine ⟨[], rfl, fun path w ↦ ?_⟩
      rw [Item.extendAt_nil]
      rfl
  | clause j f rest ih =>
      obtain ⟨middle, hfirst, hrest⟩ := replay_cons_eq_ok_iff.mp h
      obtain ⟨new, hbound, hreplay⟩ := ih hrest
      obtain ⟨t, ht⟩ : ∃ t, Sql.BoundText.ofFragment f.query f.parameters = .ok t := by
        rw [replayItem, addTo] at hfirst
        cases hadd : Sink.addClause path j f.query f.parameters w with
        | error fault => simp [hadd] at hfirst
        | ok added =>
            obtain ⟨t, ht, -⟩ := items_of_addClause_whereClause hadd
            exact ⟨t, ht⟩
      refine ⟨.clause j t :: new, ?_, fun path w ↦ ?_⟩
      · simp only [BoundAs, Item.relabel, Item.relabelOf, boundText, ht]
        rw [hbound]
      · refine replay_cons_eq_ok_iff.mpr ⟨_, addTo_whereClause ht path j w, ?_⟩
        rw [hreplay, Item.extendAt_extendAt, List.singleton_append]
  | group j inner rest ihInner ih =>
      obtain ⟨middle, hfirst, hrest⟩ := replay_cons_eq_ok_iff.mp h
      obtain ⟨place, opened, hopen, hinner⟩ := bind_eq_ok_iff.mp hfirst
      obtain ⟨held, hheld, hreplayInner⟩ := ihInner hinner
      obtain ⟨new, hbound, hreplay⟩ := ih hrest
      refine ⟨.group j held :: new, ?_, fun path w ↦ ?_⟩
      · simp only [BoundAs, Item.relabel, Item.relabelOf]
        rw [hheld, hbound]
      · have hgroup : replayItem path (.group j inner) w =
            .ok () (⟨Item.extendAt path [.group j held] w.items⟩ : Sql.WhereClause) := by
          refine bind_eq_ok_iff.mpr ⟨_, _, openIn_whereClause path j w, ?_⟩
          rw [hreplayInner, Item.extendAt_openAt]
        refine replay_cons_eq_ok_iff.mpr ⟨_, hgroup, ?_⟩
        rw [hreplay, Item.extendAt_extendAt, List.singleton_append]

/-- Whether items can be replayed into a where clause depends on their contents alone. -/
theorem exists_replay_whereClause {items : List (Item Fragment)}
    (h : ∀ f ∈ Item.contents items, ∃ t, boundText f = .ok t) (path : Path) (w : Sql.WhereClause) :
    ∃ w', replay path items w = .ok () w' := by
  induction items using Item.sequence_induction generalizing path w with
  | nil => exact ⟨w, rfl⟩
  | clause j f rest ih =>
      obtain ⟨t, ht⟩ := h f List.mem_cons_self
      obtain ⟨w', hrest⟩ := ih (fun g hg ↦ h g (List.mem_cons_of_mem _ hg)) path
        ⟨Item.extendAt path [.clause j t] w.items⟩
      exact ⟨w', replay_cons_eq_ok_iff.mpr ⟨_, addTo_whereClause ht path j w, hrest⟩⟩
  | group j inner rest ihInner ih =>
      obtain ⟨filled, hinner⟩ := ihInner (fun g hg ↦ h g (List.mem_append_left _ hg))
        (Item.openAt path j w.items).1 ⟨(Item.openAt path j w.items).2⟩
      obtain ⟨w', hrest⟩ := ih (fun g hg ↦ h g (List.mem_append_right _ hg)) path filled
      refine ⟨w', replay_cons_eq_ok_iff.mpr ⟨filled, ?_, hrest⟩⟩
      exact bind_eq_ok_iff.mpr ⟨_, _, openIn_whereClause path j w, hinner⟩

end Criteria.Clause

namespace Criteria.FilterTree

open Clause (Path Sink Builder Item Bindable replay)

variable {registry : Registry} {base : Value} {σ : Type} [Sink σ]

/-- A tree is staged when it composes to items whose own names do not clash. -/
theorem stage_eq_ok_iff {join : Join} {tree : Value} {ids ids' : IdSource} {b : Builder} :
    stage registry base join tree ids = (.ok b, ids') ↔
      ∃ entries items, tree = .dict entries ∧
        Composes registry base join entries ids items ids' ∧
        Bindable [] (Item.contents items) ∧ b = Builder.empty.extend [] items := by
  rw [stage]
  cases tree with
  | dict entries =>
      rw [applyTree]
      cases hrun : applyEntries registry base [] join entries ⟨Builder.empty, ids⟩ with
      | error fault s =>
          constructor
          · simp
          · rintro ⟨_, items, ⟨⟩, hitems, hbind, -⟩
            have hreplay : replay [] items Builder.empty =
                .ok () (Builder.empty.extend [] items) :=
              Builder.replay_eq_ok_iff.mpr ⟨hbind, rfl⟩
            have hok := applyEntries_eq_ok_iff.mpr ⟨items, hitems, hreplay⟩
            simp [hrun] at hok
      | ok _ s =>
          obtain ⟨items, hitems, hreplay⟩ := applyEntries_eq_ok_iff.mp hrun
          obtain ⟨hbind, hsink⟩ := Builder.replay_eq_ok_iff.mp hreplay
          constructor
          · simp only [Prod.mk.injEq, Except.ok.injEq]
            rintro ⟨rfl, rfl⟩
            exact ⟨entries, items, rfl, hitems, hbind, hsink⟩
          · rintro ⟨_, others, ⟨⟩, hothers, hbind', rfl⟩
            have hreplay' : replay [] others Builder.empty =
                .ok () (Builder.empty.extend [] others) :=
              Builder.replay_eq_ok_iff.mpr ⟨hbind', rfl⟩
            have hok := applyEntries_eq_ok_iff.mpr ⟨others, hothers, hreplay'⟩
            simp only [hrun, EStateM.Result.ok.injEq, true_and] at hok
            rw [hok]
  | _ => simp [applyTree, throw_apply]

/-- A tree reaches a sink when it composes to items whose own names do not clash and which can be
added to the sink. -/
theorem apply_eq_ok_iff {path : Path} {join tree : Value} {sink sink' : σ} {ids ids' : IdSource} :
    FilterTree.apply registry base path join tree ⟨sink, ids⟩ = .ok () ⟨sink', ids'⟩ ↔
      ∃ j entries items, Clause.joinOf join = .ok j ∧ tree = .dict entries ∧
        Composes registry base j entries ids items ids' ∧ Bindable [] (Item.contents items) ∧
        replay path items sink = .ok () sink' := by
  rw [FilterTree.apply]
  cases hjoin : Clause.joinOf join with
  | error fault => simp
  | ok j =>
      dsimp only
      cases hstage : stage registry base j tree ids with
      | mk result left =>
          cases result with
          | error fault =>
              constructor
              · simp
              · rintro ⟨_, entries, items, ⟨⟩, htree, hitems, hbind, -⟩
                have hok := stage_eq_ok_iff.mpr ⟨entries, items, htree, hitems, hbind, rfl⟩
                simp [hstage] at hok
          | ok staged =>
              simp only [Composing.onSink_eq_ok_iff, Composition.mk.injEq]
              constructor
              · rintro ⟨_, hreplay, rfl, rfl⟩
                obtain ⟨entries, items, htree, hitems, hbind, rfl⟩ := stage_eq_ok_iff.mp hstage
                exact ⟨j, entries, items, rfl, htree, hitems, hbind, hreplay⟩
              · rintro ⟨_, entries, items, ⟨⟩, htree, hitems, hbind, hreplay⟩
                have hok := stage_eq_ok_iff.mpr ⟨entries, items, htree, hitems, hbind, rfl⟩
                rw [hstage, Prod.mk.injEq, Except.ok.injEq] at hok
                obtain ⟨rfl, rfl⟩ := hok
                exact ⟨sink', hreplay, rfl, rfl⟩

end Criteria.FilterTree
