import Criteria.Proofs.Replay

/-!
# Trees that fail

A tree that cannot be composed never reaches its sink.  A tree that can be composed may still meet a
name that is bound in the builder already, and then its clauses up to that name have been added.
What is left in the builder is said by the items in front of the clause with the name.
-/

namespace Criteria.Clause

namespace Item

variable {α : Type}

/-- What of some items stands in front of one of their clauses: the items before it, and of a group
that holds it the front alone. -/
inductive UpTo : List (Item α) → α → List (Item α) → Prop where
  | clause {j : Join} {content : α} {rest : List (Item α)} :
      UpTo (.clause j content :: rest) content []
  | inside {j : Join} {content : α} {inner front rest : List (Item α)}
      (h : UpTo inner content front) : UpTo (.group j inner :: rest) content [.group j front]
  | behind {item : Item α} {content : α} {rest front : List (Item α)}
      (h : UpTo rest content front) : UpTo (item :: rest) content (item :: front)

theorem upTo_clause_iff {j : Join} {content other : α} {rest front : List (Item α)} :
    UpTo (.clause j content :: rest) other front ↔ (other = content ∧ front = []) ∨
      ∃ more, front = .clause j content :: more ∧ UpTo rest other more := by
  constructor
  · intro h
    cases h with
    | clause => exact Or.inl ⟨rfl, rfl⟩
    | behind h => exact Or.inr ⟨_, rfl, h⟩
  · rintro (⟨rfl, rfl⟩ | ⟨more, rfl, h⟩)
    · exact .clause
    · exact .behind h

theorem upTo_group_iff {j : Join} {other : α} {inner rest front : List (Item α)} :
    UpTo (.group j inner :: rest) other front ↔
      (∃ held, front = [.group j held] ∧ UpTo inner other held) ∨
      ∃ more, front = .group j inner :: more ∧ UpTo rest other more := by
  constructor
  · intro h
    cases h with
    | inside h => exact Or.inl ⟨_, rfl, h⟩
    | behind h => exact Or.inr ⟨_, rfl, h⟩
  · rintro (⟨held, rfl, h⟩ | ⟨more, rfl, h⟩)
    · exact .inside h
    · exact .behind h

/-- The clauses of the front come first, and the clause itself is next. -/
theorem UpTo.contents_eq {items front : List (Item α)} {content : α}
    (h : UpTo items content front) :
    ∃ others, contents items = contents front ++ content :: others := by
  induction h with
  | clause => exact ⟨_, rfl⟩
  | inside h ih =>
      obtain ⟨others, hothers⟩ := ih
      rw [contents, contentsOf, hothers, contents, contentsOf, contents, List.append_nil,
        List.append_assoc, List.cons_append]
      exact ⟨_, rfl⟩
  | behind h ih =>
      obtain ⟨others, hothers⟩ := ih
      exact ⟨others, by rw [contents, contents, hothers, List.append_assoc]⟩

end Item

/-! ## Replaying that fails -/

theorem Builder.conflict?_eq_some {b : Builder} {parameters : Parameters} {name : String}
    (h : b.conflict? parameters = some name) :
    name ∈ parameters.map (·.1) ∧ b.bound.binds name = true := by
  obtain ⟨p, hp, rfl⟩ := Option.map_eq_some_iff.mp h
  exact ⟨List.mem_map_of_mem (List.mem_of_find?_eq_some hp), by simpa using List.find?_some hp⟩

theorem Builder.addTo_eq_error_iff {path : Path} {j : Join} {f : Fragment} {fault : Fault}
    {b b' : Builder} : addTo path j f.query f.parameters b = .error fault b' ↔
      ∃ name, b.conflict? f.parameters = some name ∧ fault = .condition (.nameBound name) ∧
        b' = b := by
  have hadd : Sink.addClause path j f.query f.parameters b =
      Builder.addClause path j f.query f.parameters b := rfl
  rw [addTo, hadd, Builder.addClause, Builder.bind]
  cases b.conflict? f.parameters with
  | some name => simp [eq_comm]
  | none => simp

theorem Builder.replayItem_group (path : Path) (j : Join) (inner : List (Item Fragment))
    (b : Builder) : replayItem path (.group j inner) b =
      replay (Item.openAt path j b.items).1 inner ⟨(Item.openAt path j b.items).2, b.bound⟩ := rfl

theorem Builder.extend_nil (path : Path) (b : Builder) : b.extend path [] = b := by
  simp [Builder.extend, Item.extendAt_nil, Item.contents, parametersOf]

/-- Replaying items into a builder fails at the first clause that has a name that is bound by then,
and adds what stands in front of that clause. -/
theorem Builder.replay_eq_error_iff {path : Path} {items : List (Item Fragment)} {fault : Fault}
    {b b' : Builder} : replay path items b = .error fault b' ↔
      ∃ f front name, Item.UpTo items f front ∧ Bindable b.bound (Item.contents front) ∧
        (b.extend path front).conflict? f.parameters = some name ∧
        fault = .condition (.nameBound name) ∧ b' = b.extend path front := by
  induction items using Item.sequence_induction generalizing path b b' with
  | nil =>
      constructor
      · simp [replay, pure, EStateM.pure]
      · rintro ⟨f, front, name, hfront, -⟩
        cases hfront
  | clause j f rest ih =>
      have hrest : ∀ front, (b.extend path [.clause j f]).extend path front =
          b.extend path (.clause j f :: front) := fun front ↦ by
        rw [Builder.extend_extend, List.singleton_append]
      have hbind : ∀ front, (∀ p ∈ f.parameters, b.bound.binds p.1 = false) ∧
          Bindable (b.extend path [.clause j f]).bound (Item.contents front) ↔
          Bindable b.bound (Item.contents (.clause j f :: front)) := fun front ↦ by
        simp [Builder.extend, Item.contents, Item.contentsOf, parametersOf, Bindable]
      simp only [replay_cons_eq_error_iff, replayItem, Builder.addTo_eq_error_iff,
        Builder.addTo_eq_ok_iff, ih, Item.upTo_clause_iff]
      constructor
      · rintro (⟨name, hname, rfl, rfl⟩ |
          ⟨_, ⟨hnames, rfl⟩, g, front, name, hfront, hbound, hname, rfl, rfl⟩)
        · refine ⟨f, [], name, Or.inl ⟨rfl, rfl⟩, trivial, ?_, rfl, (extend_nil path b').symm⟩
          rwa [extend_nil]
        · exact ⟨g, .clause j f :: front, name, Or.inr ⟨front, rfl, hfront⟩,
            (hbind front).mp ⟨hnames, hbound⟩, hrest front ▸ hname, rfl, hrest front⟩
      · rintro ⟨g, front, name, (⟨rfl, rfl⟩ | ⟨more, rfl, hfront⟩), hbound, hname, rfl, rfl⟩
        · rw [extend_nil] at hname ⊢
          exact Or.inl ⟨name, hname, rfl, rfl⟩
        · obtain ⟨hnames, hmore⟩ := (hbind more).mpr hbound
          exact Or.inr ⟨_, ⟨hnames, rfl⟩, g, more, name, hfront, hmore,
            (hrest more).symm ▸ hname, rfl, (hrest more).symm⟩
  | group j inner rest ihInner ih =>
      have hopened : ∀ held, Builder.extend (Item.openAt path j b.items).1 held
          ⟨(Item.openAt path j b.items).2, b.bound⟩ = b.extend path [.group j held] :=
        fun held ↦ by
          simp [Builder.extend, Item.extendAt_openAt, Item.contents, Item.contentsOf]
      have hrest : ∀ front, (b.extend path [.group j inner]).extend path front =
          b.extend path (.group j inner :: front) := fun front ↦ by
        rw [Builder.extend_extend, List.singleton_append]
      have hbind : ∀ front, Bindable b.bound (Item.contents inner) ∧
          Bindable (b.extend path [.group j inner]).bound (Item.contents front) ↔
          Bindable b.bound (Item.contents (.group j inner :: front)) := fun front ↦ by
        simp [Builder.extend, Item.contents, Item.contentsOf, bindable_append]
      have hheld : ∀ held : List (Item Fragment), Item.contents [.group j held] =
          Item.contents held := fun held ↦ by
        simp [Item.contents, Item.contentsOf]
      simp only [replay_cons_eq_error_iff, Builder.replayItem_group, Builder.replay_eq_ok_iff,
        ihInner, ih, Item.upTo_group_iff]
      constructor
      · rintro (⟨g, front, name, hfront, hbound, hname, rfl, rfl⟩ |
          ⟨_, ⟨hnames, rfl⟩, g, front, name, hfront, hbound, hname, rfl, rfl⟩)
        · exact ⟨g, [.group j front], name, Or.inl ⟨front, rfl, hfront⟩,
            (hheld front).symm ▸ hbound, hopened front ▸ hname, rfl, hopened front⟩
        · rw [hopened] at hbound hname ⊢
          exact ⟨g, .group j inner :: front, name, Or.inr ⟨front, rfl, hfront⟩,
            (hbind front).mp ⟨hnames, hbound⟩, hrest front ▸ hname, rfl, hrest front⟩
      · rintro ⟨g, front, name, (⟨held, rfl, hfront⟩ | ⟨more, rfl, hfront⟩), hbound, hname, rfl,
          rfl⟩
        · exact Or.inl ⟨g, held, name, hfront, hheld held ▸ hbound,
            (hopened held).symm ▸ hname, rfl, (hopened held).symm⟩
        · obtain ⟨hinner, hmore⟩ := (hbind more).mpr hbound
          rw [← hopened] at hmore
          refine Or.inr ⟨_, ⟨hinner, rfl⟩, g, more, name, hfront, hmore, ?_, rfl, ?_⟩
          · rw [hopened, hrest]
            exact hname
          · rw [hopened, hrest]

end Criteria.Clause

namespace Criteria.FilterTree

open Clause (Path Builder Item replay parametersOf bindable_append)

variable {registry : Registry} {base : Value}

/-- A tree fails in a sink when it cannot be staged, or its items cannot be added to the sink. -/
theorem apply_eq_error {σ : Type} [Clause.Sink σ] {path : Path} {join tree : Value} {fault : Fault}
    {sink sink' : σ} {ids ids' : IdSource}
    (h : FilterTree.apply registry base path join tree ⟨sink, ids⟩ = .error fault ⟨sink', ids'⟩) :
    sink' = sink ∨ ∃ j entries items, Clause.joinOf join = .ok j ∧ tree = .dict entries ∧
      Composes registry base j entries ids items ids' ∧
      Clause.Bindable [] (Item.contents items) ∧
      replay path items sink = .error fault sink' := by
  rw [FilterTree.apply] at h
  cases hjoin : Clause.joinOf join with
  | error other =>
      simp only [hjoin, EStateM.Result.error.injEq, Composition.mk.injEq] at h
      exact Or.inl h.2.1.symm
  | ok j =>
      simp only [hjoin] at h
      cases hstage : stage registry base j tree ids with
      | mk result left =>
          cases result with
          | error other =>
              simp only [hstage, EStateM.Result.error.injEq, Composition.mk.injEq] at h
              exact Or.inl h.2.1.symm
          | ok staged =>
              simp only [hstage, Composing.onSink_eq_error_iff] at h
              obtain ⟨_, hreplay, hsink⟩ := h
              obtain ⟨rfl, rfl⟩ := Composition.mk.inj hsink
              obtain ⟨entries, items, htree, hitems, hbind, rfl⟩ := stage_eq_ok_iff.mp hstage
              exact Or.inr ⟨j, entries, items, rfl, htree, hitems, hbind, hreplay⟩

/-- A tree that fails leaves a builder as it was: its items, and with them its text, and its
parameters.  There is one exception.  When the tree can be composed but a name of one of its clauses
is bound in the builder already, the clauses in front of the first such clause stay, with their
groups and their parameters. -/
theorem failed_tree_leaves_builder {path : Path} {join tree : Value} {fault : Fault}
    {b b' : Builder} {ids ids' : IdSource}
    (h : FilterTree.apply registry base path join tree ⟨b, ids⟩ = .error fault ⟨b', ids'⟩) :
    b' = b ∨ ∃ j entries items f front name, Clause.joinOf join = .ok j ∧ tree = .dict entries ∧
      Composes registry base j entries ids items ids' ∧ Item.UpTo items f front ∧
      (∀ p ∈ parametersOf (Item.contents front), b.bound.binds p.1 = false) ∧
      name ∈ f.parameters.map (·.1) ∧ b.bound.binds name = true ∧
      fault = .condition (.nameBound name) ∧ b' = b.extend path front := by
  rcases apply_eq_error h with hsame | ⟨j, entries, items, hjoin, htree, hitems, hbind, hreplay⟩
  · exact Or.inl hsame
  · obtain ⟨f, front, name, hfront, hbound, hconflict, rfl, rfl⟩ :=
      Builder.replay_eq_error_iff.mp hreplay
    obtain ⟨hname, hclash⟩ := Builder.conflict?_eq_some hconflict
    refine Or.inr ⟨j, entries, items, f, front, name, hjoin, htree, hitems, hfront,
      hbound.binds_eq_false, hname, ?_, rfl, rfl⟩
    -- The names of the tree do not clash with each other, so the builder had the name before.
    obtain ⟨others, hothers⟩ := hfront.contents_eq
    rw [hothers, bindable_append] at hbind
    obtain ⟨p, hp, rfl⟩ := List.mem_map.mp hname
    have hown : (parametersOf (Item.contents front)).binds p.1 = false := hbind.2.1 p hp
    have hsplit : (b.extend path front).bound.binds p.1 =
        (b.bound.binds p.1 || (parametersOf (Item.contents front)).binds p.1) :=
      Clause.binds_append ..
    rwa [hsplit, hown, Bool.or_false] at hclash

/-- The range of the second entry has one end only, so the clause of the first one is not added. -/
theorem failed_tree_leaves_builder_range :
    ∃ (tree operand : Value) (cause : ConditionFault) (b b' : Builder) (ids' : IdSource),
      cause = .operandShape "$between" Operator.between.expectation operand ∧
      FilterTree.apply Registry.full (.text "e") [] (.text "OR") tree ⟨b, .standard⟩ =
        .error (.condition (.located (.text "age") (some "$or[0].age") cause (some cause)))
          ⟨b', ids'⟩ ∧
      ids' = .sequence "p" 2 ∧ b' = b ∧ (b.build []).query = "e.id = :id" := by
  obtain ⟨tree, operand, cause, b, b', ids', hcause, hrun, hids, hquery⟩ :
      ∃ (tree operand : Value) (cause : ConditionFault) (b b' : Builder) (ids' : IdSource),
        cause = .operandShape "$between" Operator.between.expectation operand ∧
        FilterTree.apply Registry.full (.text "e") [] (.text "OR") tree ⟨b, .standard⟩ =
          .error (.condition (.located (.text "age") (some "$or[0].age") cause (some cause)))
            ⟨b', ids'⟩ ∧
        ids' = .sequence "p" 2 ∧ (b.build []).query = "e.id = :id" :=
    ⟨.dict [(.text "name", .text "Ann"), (.text "$or", .list [.dict [(.text "age",
        .dict [(.text "$between", .list [.int 18])])]])], _, _,
      ⟨[.clause .and ⟨"e.id = :id", [("id", .int 7)]⟩], [("id", .int 7)]⟩, _, _, rfl, rfl, rfl,
      by decide⟩
  rcases failed_tree_leaves_builder hrun with
    hsame | ⟨_, _, _, _, _, _, -, -, -, -, -, -, -, hfault, -⟩
  · exact ⟨tree, operand, cause, b, b', ids', hcause, hrun, hids, hsame, hquery⟩
  · cases hfault

/-- Two sources of identifiers that begin alike.  The name of the second clause is taken, and the
clause in front of it is left behind. -/
theorem clause_left_behind :
    ∃ (first second : Value) (b b' : Builder) (ids ids' : IdSource),
      FilterTree.apply Registry.full (.text "e") [] (.text "AND") first
        ⟨Builder.empty, .standard⟩ = .ok () ⟨b, ids⟩ ∧
      FilterTree.apply Registry.full (.text "e") [] (.text "AND") second ⟨b, .standard⟩ =
        .error (.condition (.nameBound "p2_equalTo_e_age")) ⟨b', ids'⟩ ∧
      (b.build []).query = "e.name = :p1_equalTo_e_name AND e.age = :p2_equalTo_e_age" ∧
      (b'.build []).query = "e.name = :p1_equalTo_e_name AND e.age = :p2_equalTo_e_age " ++
        "AND e.rank = :p1_equalTo_e_rank" ∧
      b.bound.binds "p1_equalTo_e_rank" = false ∧ b'.bound.binds "p1_equalTo_e_rank" = true :=
  ⟨.dict [(.text "name", .text "Ann"), (.text "age", .int 30)],
    .dict [(.text "rank", .int 1), (.text "age", .int 40)],
    ⟨[.clause .and ⟨"e.name = :p1_equalTo_e_name", [("p1_equalTo_e_name", .text "Ann")]⟩,
      .clause .and ⟨"e.age = :p2_equalTo_e_age", [("p2_equalTo_e_age", .int 30)]⟩],
      [("p1_equalTo_e_name", .text "Ann"), ("p2_equalTo_e_age", .int 30)]⟩,
    _, _, _, rfl, rfl, by decide, by decide, by decide, by decide⟩

end Criteria.FilterTree
