import Mathlib.Data.List.Basic
import Criteria.Proofs.Relocation
import Criteria.Proofs.Requests

/-!
# Calls on a group

The calls that fill a builder are made on the builder itself and on the groups that have been opened
in it, in any order.  Those of them that were made on one group, or on a group in it, fill a builder
of their own with the items of that group.
-/

namespace Criteria.Clause

open Sql (WhereClause)

/-! ## What a call adds -/

theorem Builder.extend_group (path : Path) (j : Join) (b : Builder) :
    b.extend path [.group j []] = ⟨(Item.openAt path j b.items).2, b.bound⟩ := by
  simp [Builder.extend, Item.openAt, Item.appendAt_eq_extendAt, parametersOf, Item.contents,
    Item.contentsOf]

theorem Builder.extend_extend_group (path : Path) (j : Join) (items : List (Item Fragment))
    (b : Builder) : (b.extend path [.group j []]).extend (Item.openAt path j b.items).1 items =
      b.extend path [.group j items] := by
  rw [extend_group]
  simp [Builder.extend, Item.extendAt_openAt, Item.contents, Item.contentsOf]

theorem Builder.bound_extend_clause (path : Path) (j : Join) (f : Fragment) (b : Builder) :
    (b.extend path [.clause j f]).bound = b.bound ++ f.parameters := by
  simp [Builder.extend, parametersOf, Item.contents, Item.contentsOf]

namespace Call

/-- The number of the group that a call is made on. -/
def on : Call → Nat
  | clause on _ _ _ => on
  | group on _ => on

/-- The call on the group with another number. -/
def redirect (on : Nat) : Call → Call
  | clause _ j query parameters => clause on j query parameters
  | group _ j => group on j

/-- The item that a call adds. -/
def item : Call → Item Fragment
  | clause _ j query parameters => .clause j ⟨query, parameters⟩
  | group _ j => .group j []

/-- The path of the group that a call opens, if it is made on the group at a path. -/
def opens {α : Type} (path : Path) (items : List (Item α)) : Call → List Path
  | clause _ _ _ _ => []
  | group _ j => [(Item.openAt path j items).1]

@[simp] theorem on_redirect (n : Nat) (call : Call) : (call.redirect n).on = n := by
  cases call <;> rfl

@[simp] theorem item_redirect (n : Nat) (call : Call) : (call.redirect n).item = call.item := by
  cases call <;> rfl

@[simp] theorem opens_redirect {α : Type} (n : Nat) (path : Path) (items : List (Item α))
    (call : Call) : (call.redirect n).opens path items = call.opens path items := by
  cases call <;> rfl

/-- There is nothing in a group that has just been opened. -/
theorem itemsAt_item (call : Call) (i : Nat) (inner : Path) :
    Item.itemsAt (i :: inner) [call.item] = [] := by
  cases i with
  | zero => cases call <;> cases inner <;> simp [item, Item.itemsAt]
  | succ i => simp [Item.itemsAt]

theorem opens_congr {α β : Type} {path other : Path} {items : List (Item α)}
    {others : List (Item β)} (call : Call) (f : Path → Path)
    (h : ∀ j, (Item.openAt other j others).1 = f (Item.openAt path j items).1) :
    call.opens other others = (call.opens path items).map f := by
  cases call with
  | clause on j query parameters => rfl
  | group on j => exact congrArg (fun inner ↦ [inner]) (h j)

theorem perform_eq_ok_of_not_opened {σ : Type} [Sink σ] {call : Call} {s : Session σ}
    (h : s.opened[call.on]? = none) : call.perform s = .ok s := by
  cases call <;> simp only [perform, on] at h ⊢ <;> rw [h]

/-- A call succeeds on a builder when its names are not bound yet, and then adds its item. -/
theorem perform_builder_eq_ok_iff {call : Call} {s s' : Session Builder} {path : Path}
    (hpath : s.opened[call.on]? = some path) : call.perform s = .ok s' ↔
      (∀ p ∈ parametersOf (Item.contents [call.item]), s.sink.bound.binds p.1 = false) ∧
        s' = ⟨s.sink.extend path [call.item], s.opened ++ call.opens path s.sink.items⟩ := by
  cases call with
  | clause on j query parameters =>
      have hadd : Sink.addClause path j query parameters s.sink =
          Builder.addClause path j query parameters s.sink := rfl
      have hnames : parametersOf (Item.contents [(clause on j query parameters).item]) =
          parameters := by
        simp [item, Item.contents, Item.contentsOf, parametersOf]
      simp only [perform, Call.on] at hpath ⊢
      rw [hnames, ← Builder.conflict?_eq_none_iff]
      simp only [hpath, hadd, Builder.addClause, Builder.bind]
      cases s.sink.conflict? parameters with
      | some name => simp
      | none =>
          simp [Builder.extend, item, opens, Item.appendAt_eq_extendAt, parametersOf,
            Item.contents, Item.contentsOf, eq_comm]
  | group on j =>
      simp only [perform, Call.on] at hpath ⊢
      have hopen : Sink.openGroup path j s.sink =
          ((Item.openAt path j s.sink.items).1, s.sink.extend path [.group j []]) := by
        rw [Builder.extend_group]
        rfl
      simp only [hpath, hopen, Except.ok.injEq]
      rw [eq_comm]
      simp [item, opens, Item.contents, Item.contentsOf, parametersOf]

theorem boundAs_clause_iff {j : Join} {f : Fragment} {new : List (Item Sql.BoundText)} :
    BoundAs [.clause j f] new ↔ ∃ t, boundText f = .ok t ∧ new = [.clause j t] := by
  constructor
  · intro h
    obtain ⟨item, rfl⟩ : ∃ item, new = [item] := by
      rw [← List.length_eq_one_iff, ← Item.length_eq_of_relabel_eq h]
      rfl
    cases item with
    | clause k t =>
        simp only [BoundAs, Item.relabel, Item.relabelOf, List.cons.injEq, Item.clause.injEq,
          and_true] at h
        exact ⟨t, h.2, by rw [h.1]⟩
    | group k inner => simp [BoundAs, Item.relabel, Item.relabelOf] at h
  · rintro ⟨t, ht, rfl⟩
    exact BoundAs.clause ht j

theorem boundAs_unique {items : List (Item Fragment)} {new newer : List (Item Sql.BoundText)}
    (h : BoundAs items new) (h' : BoundAs items newer) : new = newer :=
  Item.relabel_injective (fun _ _ heq ↦ Except.ok.inj heq) (h.symm.trans h')

/-- A call succeeds on a where clause when its text can be bound, and then adds its item. -/
theorem perform_whereClause_eq_ok_iff {call : Call} {t t' : Session WhereClause} {path : Path}
    (hpath : t.opened[call.on]? = some path) : call.perform t = .ok t' ↔
      ∃ new, BoundAs [call.item] new ∧ t' = ⟨⟨Item.extendAt path new t.sink.items⟩,
        t.opened ++ call.opens path t.sink.items⟩ := by
  cases call with
  | clause on j query parameters =>
      have hadd : Sink.addClause path j query parameters t.sink =
          WhereClause.addClause path j query parameters t.sink := rfl
      simp only [perform, Call.on, item, boundAs_clause_iff] at hpath ⊢
      simp only [hpath, hadd, WhereClause.addClause, boundText]
      cases Sql.BoundText.ofFragment query parameters with
      | error fault => simp
      | ok text => simp [opens, Item.appendAt_eq_extendAt, eq_comm]
  | group on j =>
      have hnew : ∀ new, BoundAs [.group j []] new ↔ new = [.group j []] := fun new ↦
        ⟨fun h ↦ boundAs_unique h rfl, fun h ↦ h ▸ rfl⟩
      have hopen : Sink.openGroup path j t.sink = ((Item.openAt path j t.sink.items).1,
          (⟨Item.extendAt path [.group j []] t.sink.items⟩ : WhereClause)) := by
        change (_, WhereClause.mk (Item.openAt path j t.sink.items).2) = _
        rw [Item.openAt, Item.appendAt_eq_extendAt]
      simp only [perform, Call.on] at hpath ⊢
      simp only [hpath, hopen, Except.ok.injEq, item, hnew, exists_eq_left, opens]
      exact eq_comm

theorem allOpen_perform {call : Call} {s s' : Session Builder}
    (h : AllOpen s.opened s.sink.items) (hs : call.perform s = .ok s') :
    AllOpen s'.opened s'.sink.items := by
  cases hpath : s.opened[call.on]? with
  | none =>
      rw [perform_eq_ok_of_not_opened hpath, Except.ok.injEq] at hs
      exact hs ▸ h
  | some path =>
      obtain ⟨-, rfl⟩ := (perform_builder_eq_ok_iff hpath).mp hs
      apply h.extend (h path (List.mem_of_getElem? hpath))
      cases call with
      | clause on j query parameters => exact Or.inl (List.append_nil _)
      | group on j => exact Or.inr ⟨j, rfl, rfl⟩

theorem allOpen_start : AllOpen (Session.start Builder.empty).opened Builder.empty.items := by
  simp [AllOpen, Session.start, Item.IsOpen]

/-! ## Calls inside a group -/

/-- Where the groups that have been opened in the group at a path are inside it, beginning with the
group itself. -/
def inside (path : Path) (opened : List Path) : List Path := opened.filterMap path.isPrefixOf?

/-- The call as one on the group at a path by itself, unless it is made elsewhere. -/
def within (path : Path) (opened : List Path) (call : Call) : List Call :=
  match opened[call.on]?.bind path.isPrefixOf? with
  | some _ => [call.redirect (inside path (opened.take call.on)).length]
  | none => []

/-- Those of the calls on a builder that are made on the group at a path or on a group in it. -/
def madeIn (path : Path) : List Call → Session Builder → List Call
  | [], _ => []
  | call :: rest, s =>
    match call.perform s with
    | .ok s' => call.within path s.opened ++ madeIn path rest s'
    | .error _ => []

theorem inside_append (path : Path) (opened others : List Path) :
    inside path (opened ++ others) = inside path opened ++ inside path others :=
  List.filterMap_append

theorem inside_singleton_append (path inner : Path) : inside path [path ++ inner] = [inner] := by
  have hinner : path.isPrefixOf? (path ++ inner) = some inner :=
    List.isPrefixOf?_eq_some_iff_append_eq.mpr rfl
  simp [inside, hinner]

theorem inside_map_append (path : Path) (inner : List Path) :
    inside path (inner.map (path ++ ·)) = inner := by
  induction inner with
  | nil => rfl
  | cons first rest ih =>
      rw [List.map_cons, ← List.singleton_append, inside_append, inside_singleton_append, ih,
        List.singleton_append]

theorem inside_singleton_of_not_prefix {path other : Path} (h : ¬path <+: other) :
    inside path [other] = [] := by
  cases hother : path.isPrefixOf? other with
  | none => simp [inside, hother]
  | some inner => exact absurd ⟨inner, List.isPrefixOf?_eq_some_iff_append_eq.mp hother⟩ h

theorem inside_eq_nil {path : Path} {opened : List Path} {items : List (Item Fragment)}
    (hopen : AllOpen opened items) (h : ¬Item.IsOpen path items) : inside path opened = [] := by
  rw [inside, List.filterMap_eq_nil_iff]
  intro other hother
  cases hinner : path.isPrefixOf? other with
  | none => rfl
  | some inner =>
      obtain rfl := List.isPrefixOf?_eq_some_iff_append_eq.mp hinner
      exact absurd (Item.isOpen_append_iff.mp (hopen _ hother)).1 h

theorem getElem?_inside {path inner : Path} {opened : List Path} {n : Nat}
    (h : opened[n]? = some (path ++ inner)) :
    (inside path opened)[(inside path (opened.take n)).length]? = some inner := by
  obtain ⟨hn, hget⟩ := List.getElem?_eq_some_iff.mp h
  have hsplit : opened = opened.take n ++ (path ++ inner) :: opened.drop (n + 1) := by
    rw [← hget, List.getElem_cons_drop, List.take_append_drop]
  have hinside : inside path opened = inside path (opened.take n) ++
      (inside path [path ++ inner] ++ inside path (opened.drop (n + 1))) := by
    rw [← inside_append, ← inside_append, List.singleton_append, ← hsplit]
  rw [hinside, inside_singleton_append]
  simp

end Call

open Call (inside)

/-- A builder of its own that holds what the group at a path of another one holds, with the groups
that have been opened in that group. -/
structure Session.Mirrors (path : Path) (c s : Session Builder) : Prop where
  items : c.sink.items = Item.itemsAt path s.sink.items
  free : ∀ name, s.sink.bound.binds name = false → c.sink.bound.binds name = false
  opened : c.opened = if inside path s.opened = [] then [[]] else inside path s.opened

namespace Session.Mirrors

variable {path : Path} {c s s' : Session Builder}

theorem start (path : Path) :
    (Session.start Builder.empty).Mirrors path (.start Builder.empty) := by
  refine ⟨?_, fun _ h ↦ h, ?_⟩
  · cases path <;> rfl
  · cases path with
    | nil => rfl
    | cons i path => rfl

/-- A call on the group or in it is repeated by the builder of its own. -/
theorem perform_inside (h : c.Mirrors path s) (hopen : AllOpen s.opened s.sink.items) {call : Call}
    {inner : Path} (hon : s.opened[call.on]? = some (path ++ inner))
    (hs : call.perform s = .ok s') :
    ∃ c', (call.redirect (inside path (s.opened.take call.on)).length).perform c = .ok c' ∧
      c'.Mirrors path s' := by
  obtain ⟨hnames, rfl⟩ := (Call.perform_builder_eq_ok_iff hon).mp hs
  have hinner := Call.getElem?_inside hon
  have hsome : inside path s.opened ≠ [] := by
    intro hnone
    simp [hnone] at hinner
  have hopened : c.opened = inside path s.opened := by rw [h.opened, if_neg hsome]
  have hpath : Item.IsOpen path s.sink.items :=
    (Item.isOpen_append_iff.mp (hopen _ (List.mem_of_getElem? hon))).1
  have hopens : call.opens (path ++ inner) s.sink.items =
      (call.opens inner c.sink.items).map (path ++ ·) := by
    refine Call.opens_congr call _ fun j ↦ ?_
    simp [Item.openAt, Item.itemsAt_append, h.items]
  have hredirected : c.opened[(call.redirect (inside path (s.opened.take call.on)).length).on]? =
      some inner := by
    rw [Call.on_redirect, hopened, hinner]
  refine ⟨_, (Call.perform_builder_eq_ok_iff hredirected).mpr ⟨fun p hp ↦ ?_, rfl⟩, ?_, ?_, ?_⟩
  · rw [Call.item_redirect] at hp
    exact h.free p.1 (hnames p hp)
  · simp only [Call.item_redirect, Builder.extend]
    rw [Item.itemsAt_extendAt_append hpath, h.items]
  · intro name hname
    rw [Builder.extend, binds_append, Bool.or_eq_false_iff] at hname
    rw [Call.item_redirect, Builder.extend, binds_append, Bool.or_eq_false_iff]
    exact ⟨h.free name hname.1, hname.2⟩
  · rw [hopens, Call.inside_append, Call.inside_map_append, if_neg (by simp [hsome]),
      Call.opens_redirect, hopened]

/-- A call made elsewhere changes nothing in the group, but it may be the one that opens the
group. -/
theorem perform_outside (h : c.Mirrors path s) (hopen : AllOpen s.opened s.sink.items) {call : Call}
    {other : Path} (hon : s.opened[call.on]? = some other) (hother : ¬path <+: other)
    (hs : call.perform s = .ok s') : c.Mirrors path s' := by
  obtain ⟨-, rfl⟩ := (Call.perform_builder_eq_ok_iff hon).mp hs
  refine ⟨?_, fun name hname ↦ ?_, ?_⟩
  · rw [h.items]
    exact (Item.itemsAt_extendAt_of_not_prefix hother (Or.inr call.itemsAt_item)).symm
  · rw [Builder.extend, binds_append, Bool.or_eq_false_iff] at hname
    exact h.free name hname.1
  · have hnew : inside path (call.opens other s.sink.items) = [] ∨
        inside path s.opened = [] ∧ inside path (call.opens other s.sink.items) = [[]] := by
      cases call with
      | clause on j query parameters => exact Or.inl rfl
      | group on j =>
          rw [Call.opens, Item.openAt]
          -- Either the group itself is opened, for the first time, or a group that is not in it.
          by_cases hprefix : path <+: other ++ [(Item.itemsAt other s.sink.items).length]
          · obtain rfl := (List.prefix_concat_iff.mp hprefix).resolve_right hother
            have hclosed := Item.not_isOpen_length other s.sink.items
            have hself := Call.inside_singleton_append
              (other ++ [(Item.itemsAt other s.sink.items).length]) []
            rw [List.append_nil] at hself
            exact Or.inr ⟨Call.inside_eq_nil hopen hclosed, hself⟩
          · exact Or.inl (Call.inside_singleton_of_not_prefix hprefix)
    rw [h.opened, Call.inside_append]
    rcases hnew with hnew | ⟨hnone, hself⟩
    · rw [hnew, List.append_nil]
    · simp [hnone, hself]

theorem perform (h : c.Mirrors path s) (hopen : AllOpen s.opened s.sink.items) {call : Call}
    (hs : call.perform s = .ok s') :
    ∃ c', Call.performAll (call.within path s.opened) c = .ok c' ∧ c'.Mirrors path s' := by
  rw [Call.within]
  cases hon : s.opened[call.on]? with
  | none =>
      rw [Call.perform_eq_ok_of_not_opened hon, Except.ok.injEq] at hs
      exact ⟨c, rfl, hs ▸ h⟩
  | some other =>
      rw [Option.bind_some]
      cases hinner : path.isPrefixOf? other with
      | none =>
          refine ⟨c, rfl, h.perform_outside hopen hon ?_ hs⟩
          rintro ⟨inner, hother⟩
          rw [List.isPrefixOf?_eq_some_iff_append_eq.mpr hother] at hinner
          cases hinner
      | some inner =>
          obtain rfl := List.isPrefixOf?_eq_some_iff_append_eq.mp hinner
          obtain ⟨c', hcall, hmirrors⟩ := h.perform_inside hopen hon hs
          exact ⟨c', by simp only [Call.performAll, hcall], hmirrors⟩

end Session.Mirrors

namespace Call

theorem performAll_append {σ : Type} [Sink σ] {calls others : List Call} {s middle s' : Session σ}
    (h : performAll calls s = .ok middle) (h' : performAll others middle = .ok s') :
    performAll (calls ++ others) s = .ok s' := by
  induction calls generalizing s with
  | nil =>
      rw [performAll, Except.ok.injEq] at h
      exact h ▸ h'
  | cons call rest ih =>
      obtain ⟨next, hcall, hrest⟩ := performAll_cons h
      simp only [List.cons_append, performAll, hcall]
      exact ih hrest

theorem exists_performAll_madeIn {path : Path} {calls : List Call} {c s s' : Session Builder}
    (h : c.Mirrors path s) (hopen : AllOpen s.opened s.sink.items)
    (hs : performAll calls s = .ok s') :
    ∃ c', performAll (madeIn path calls s) c = .ok c' ∧ c'.Mirrors path s' := by
  -- By induction on the calls: the second builder mirrors the group after each of them.
  induction calls generalizing c s with
  | nil =>
      rw [performAll, Except.ok.injEq] at hs
      exact ⟨c, rfl, hs ▸ h⟩
  | cons call rest ih =>
      obtain ⟨middle, hcall, hrest⟩ := performAll_cons hs
      obtain ⟨c₁, hfirst, hmirrors⟩ := h.perform hopen hcall
      obtain ⟨c', hothers, hmirrors'⟩ := ih hmirrors (allOpen_perform hopen hcall) hrest
      simp only [madeIn, hcall]
      exact ⟨c', performAll_append hfirst hothers, hmirrors'⟩

/-- The calls that were made in a group fill a builder of their own with the items of that group. -/
theorem exists_madeIn {calls : List Call} {s : Session Builder}
    (hs : performAll calls (.start Builder.empty) = .ok s) (path : Path) :
    ∃ c : Session Builder,
      performAll (madeIn path calls (.start Builder.empty)) (.start Builder.empty) = .ok c ∧
        c.sink.items = Item.itemsAt path s.sink.items := by
  obtain ⟨c, hc, hmirrors⟩ := exists_performAll_madeIn (.start path) allOpen_start hs
  exact ⟨c, hc, hmirrors.items⟩

end Call

end Criteria.Clause
