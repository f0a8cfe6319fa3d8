import Criteria.Proofs.Failure
import Criteria.Proofs.GroupCalls

/-!
# Replaying and calling directly

Items that are replayed into a where clause could also have been put there by the calls that they
came from.  These calls may have been made in another order than that of the items, and the groups
that they open are in other places, but they add up to the same.
-/

namespace Criteria.Clause

open Sql (WhereClause)

/-! ## What a replay adds to a where clause -/

theorem BoundAs.exists_boundText {items : List (Item Fragment)} {new : List (Item Sql.BoundText)}
    (h : BoundAs items new) : ∀ f ∈ Item.contents items, ∃ t, boundText f = .ok t := by
  intro f hf
  have hmem : boundText f ∈ (Item.contents new).map .ok :=
    h.map_contents ▸ List.mem_map_of_mem hf
  obtain ⟨t, -, ht⟩ := List.mem_map.mp hmem
  exact ⟨t, ht.symm⟩

theorem exists_boundAs {items : List (Item Fragment)}
    (h : ∀ f ∈ Item.contents items, ∃ t, boundText f = .ok t) : ∃ new, BoundAs items new := by
  obtain ⟨w, hreplay⟩ := exists_replay_whereClause h [] WhereClause.empty
  obtain ⟨new, hnew, -⟩ := replay_whereClause hreplay
  exact ⟨new, hnew⟩

/-- A replay into a where clause succeeds when all texts can be bound, and adds the items with their
texts bound. -/
theorem replay_whereClause_eq_ok_iff {path : Path} {items : List (Item Fragment)}
    {w w' : WhereClause} : replay path items w = .ok () w' ↔
      ∃ new, BoundAs items new ∧ w' = ⟨Item.extendAt path new w.items⟩ := by
  constructor
  · intro h
    obtain ⟨new, hnew, hreplay⟩ := replay_whereClause h
    rw [hreplay, EStateM.Result.ok.injEq] at h
    exact ⟨new, hnew, h.2.symm⟩
  · rintro ⟨new, hnew, rfl⟩
    obtain ⟨w', h⟩ := exists_replay_whereClause hnew.exists_boundText path w
    obtain ⟨newer, hnewer, hreplay⟩ := replay_whereClause h
    rw [hreplay, Call.boundAs_unique hnew hnewer]

/-! ## What the calls add to it -/

namespace Call

theorem contents_subset_perform {call : Call} {s s' : Session Builder}
    (hopen : AllOpen s.opened s.sink.items) (hs : call.perform s = .ok s') :
    Item.contents s.sink.items ⊆ Item.contents s'.sink.items := by
  cases hon : s.opened[call.on]? with
  | none =>
      rw [perform_eq_ok_of_not_opened hon, Except.ok.injEq] at hs
      exact hs ▸ List.Subset.refl _
  | some place =>
      obtain ⟨-, rfl⟩ := (perform_builder_eq_ok_iff hon).mp hs
      intro f hf
      exact (Item.contents_extendAt_perm (hopen place (List.mem_of_getElem? hon)) _).mem_iff.mpr
        (List.mem_append_left _ hf)

theorem contents_subset_performAll {calls : List Call} {s s' : Session Builder}
    (hopen : AllOpen s.opened s.sink.items) (hs : performAll calls s = .ok s') :
    Item.contents s.sink.items ⊆ Item.contents s'.sink.items := by
  induction calls generalizing s with
  | nil =>
      rw [performAll, Except.ok.injEq] at hs
      exact hs ▸ List.Subset.refl _
  | cons call rest ih =>
      obtain ⟨middle, hcall, hrest⟩ := performAll_cons hs
      exact List.Subset.trans (contents_subset_perform hopen hcall)
        (ih (allOpen_perform hopen hcall) hrest)

end Call

/-- A where clause that has received, at a path, what a builder of its own holds. -/
structure Session.Transfers (path : Path) (w : WhereClause) (s : Session Builder)
    (t : Session WhereClause) : Prop where
  items : ∃ new, BoundAs s.sink.items new ∧ t.sink.items = Item.extendAt path new w.items
  opened : t.opened = s.opened.map (Item.shift path (Item.itemsAt path w.items).length)

namespace Session.Transfers

variable {path : Path} {w : WhereClause} {s s' : Session Builder} {t t' : Session WhereClause}

theorem start (path : Path) (w : WhereClause) :
    Transfers path w (.start Builder.empty) ⟨w, [path]⟩ :=
  ⟨⟨[], rfl, (Item.extendAt_nil path w.items).symm⟩, rfl⟩

theorem getElem?_opened (h : Transfers path w s t) (n : Nat) : t.opened[n]? =
    s.opened[n]?.map (Item.shift path (Item.itemsAt path w.items).length) := by
  rw [h.opened, List.getElem?_map]

theorem perform (h : Transfers path w s t) (hpath : Item.IsOpen path w.items) {call : Call}
    (hs : call.perform s = .ok s') (ht : call.perform t = .ok t') : Transfers path w s' t' := by
  have hopened := h.getElem?_opened call.on
  cases hon : s.opened[call.on]? with
  | none =>
      rw [hon, Option.map_none] at hopened
      rw [Call.perform_eq_ok_of_not_opened hon, Except.ok.injEq] at hs
      rw [Call.perform_eq_ok_of_not_opened hopened, Except.ok.injEq] at ht
      exact hs ▸ ht ▸ h
  | some place =>
      rw [hon, Option.map_some] at hopened
      obtain ⟨-, rfl⟩ := (Call.perform_builder_eq_ok_iff hon).mp hs
      obtain ⟨new, hnew, rfl⟩ := (Call.perform_whereClause_eq_ok_iff hopened).mp ht
      obtain ⟨texts, htexts, hitems⟩ := h.items
      refine ⟨⟨_, htexts.extendAt hnew place, ?_⟩, ?_⟩
      · rw [hitems, Item.extendAt_shift]
      · rw [List.map_append, h.opened]
        refine congrArg (_ ++ ·) (Call.opens_congr call _ fun j ↦ ?_)
        rw [hitems, Item.openAt_shift hpath, Item.openAt_fst_eq_of_relabel_eq htexts]

theorem exists_perform (h : Transfers path w s t) (hopen : AllOpen s.opened s.sink.items)
    {call : Call} (hs : call.perform s = .ok s')
    (htexts : ∀ f ∈ Item.contents s'.sink.items, ∃ text, boundText f = .ok text) :
    ∃ t', call.perform t = .ok t' := by
  have hopened := h.getElem?_opened call.on
  cases hon : s.opened[call.on]? with
  | none =>
      rw [hon, Option.map_none] at hopened
      exact ⟨t, Call.perform_eq_ok_of_not_opened hopened⟩
  | some place =>
      rw [hon, Option.map_some] at hopened
      obtain ⟨-, rfl⟩ := (Call.perform_builder_eq_ok_iff hon).mp hs
      have hplace := Item.contents_extendAt_perm (hopen place (List.mem_of_getElem? hon))
        [call.item]
      obtain ⟨new, hnew⟩ := exists_boundAs fun f hf ↦
        htexts f (hplace.mem_iff.mpr (List.mem_append_right _ hf))
      exact ⟨_, (Call.perform_whereClause_eq_ok_iff hopened).mpr ⟨new, hnew, rfl⟩⟩

theorem performAll (h : Transfers path w s t) (hpath : Item.IsOpen path w.items)
    {calls : List Call} (hs : Call.performAll calls s = .ok s')
    (ht : Call.performAll calls t = .ok t') : Transfers path w s' t' := by
  induction calls generalizing s t with
  | nil =>
      simp only [Call.performAll, Except.ok.injEq] at hs ht
      exact hs ▸ ht ▸ h
  | cons call rest ih =>
      obtain ⟨b, hb, hs⟩ := Call.performAll_cons hs
      obtain ⟨v, hv, ht⟩ := Call.performAll_cons ht
      exact ih (h.perform hpath hb hv) hs ht

theorem exists_performAll (h : Transfers path w s t) (hpath : Item.IsOpen path w.items)
    (hopen : AllOpen s.opened s.sink.items) {calls : List Call}
    (hs : Call.performAll calls s = .ok s')
    (htexts : ∀ f ∈ Item.contents s'.sink.items, ∃ text, boundText f = .ok text) :
    ∃ t', Call.performAll calls t = .ok t' := by
  induction calls generalizing s t with
  | nil => exact ⟨t, rfl⟩
  | cons call rest ih =>
      obtain ⟨b, hb, hs⟩ := Call.performAll_cons hs
      have hopen' := Call.allOpen_perform hopen hb
      have hfirst : ∀ f ∈ Item.contents b.sink.items, ∃ text, boundText f = .ok text :=
        fun f hf ↦ htexts f (Call.contents_subset_performAll hopen' hs hf)
      obtain ⟨v, hv⟩ := h.exists_perform hopen hb hfirst
      obtain ⟨t', ht'⟩ := ih (h.perform hpath hb hv) hopen' hs
      exact ⟨t', by simp only [Call.performAll, hv, ht']⟩

end Session.Transfers

/-- Replaying a builder into a where clause, at any of its groups, comes to the same as making the
calls there by which the builder has been filled. -/
theorem replay_whereClause_iff_performAll {calls : List Call} {s : Session Builder}
    (hs : Call.performAll calls (.start Builder.empty) = .ok s) {path : Path} {w : WhereClause}
    (hpath : Item.IsOpen path w.items) (w' : WhereClause) :
    replay path s.sink.items w = .ok () w' ↔
      ∃ t, Call.performAll calls ⟨w, [path]⟩ = .ok t ∧ t.sink = w' := by
  rw [replay_whereClause_eq_ok_iff]
  constructor
  · rintro ⟨new, hnew, rfl⟩
    obtain ⟨t, ht⟩ := (Session.Transfers.start path w).exists_performAll hpath
      Call.allOpen_start hs hnew.exists_boundText
    obtain ⟨newer, hnewer, hitems⟩ :=
      ((Session.Transfers.start path w).performAll hpath hs ht).items
    refine ⟨t, ht, congrArg WhereClause.mk ?_⟩
    rw [hitems, Call.boundAs_unique hnew hnewer]
  · rintro ⟨t, ht, rfl⟩
    obtain ⟨new, hnew, hitems⟩ := ((Session.Transfers.start path w).performAll hpath hs ht).items
    exact ⟨new, hnew, congrArg WhereClause.mk hitems⟩

/-- Of a group of a builder it is the calls made in that group that come to the same. -/
theorem replay_whereClause_iff_madeIn {calls : List Call} {s : Session Builder}
    (hs : Call.performAll calls (.start Builder.empty) = .ok s) (place : Path) {path : Path}
    {w : WhereClause} (hpath : Item.IsOpen path w.items) (w' : WhereClause) :
    replay path (Item.itemsAt place s.sink.items) w = .ok () w' ↔
      ∃ t, Call.performAll (Call.madeIn place calls (.start Builder.empty)) ⟨w, [path]⟩ = .ok t ∧
        t.sink = w' := by
  obtain ⟨c, hc, hitems⟩ := Call.exists_madeIn hs place
  rw [← hitems]
  exact replay_whereClause_iff_performAll hc hpath w'

/-! ## Calls for given items -/

namespace Call

theorem performAll_singleton {σ : Type} [Sink σ] {call : Call} {s s' : Session σ}
    (h : call.perform s = .ok s') : performAll [call] s = .ok s' := by
  simp only [performAll, h]

theorem getElem?_append_of_eq_some {γ : Type} {l : List γ} {n : Nat} {a : γ} (h : l[n]? = some a)
    (more : List γ) : (l ++ more)[n]? = some a := by
  obtain ⟨hn, -⟩ := List.getElem?_eq_some_iff.mp h
  rw [List.getElem?_append_left hn, h]

/-- Any items whose names are free can be added to a builder by calls. -/
theorem exists_performAll {items : List (Item Fragment)} {s : Session Builder} {on : Nat}
    {path : Path} (hon : s.opened[on]? = some path)
    (hbind : Bindable s.sink.bound (Item.contents items)) :
    ∃ calls s', performAll calls s = .ok s' ∧ s'.sink = s.sink.extend path items ∧
      ∃ more, s'.opened = s.opened ++ more := by
  induction items using Item.sequence_induction generalizing s on path with
  | nil =>
      exact ⟨[], s, rfl, (Builder.extend_nil path s.sink).symm, [], (List.append_nil _).symm⟩
  | clause j f rest ih =>
      obtain ⟨hfree, hrest⟩ := hbind
      have hcall : (clause on j f.query f.parameters).perform s =
          .ok ⟨s.sink.extend path [.clause j f], s.opened ++ []⟩ := by
        refine (perform_builder_eq_ok_iff hon).mpr ⟨fun p hp ↦ hfree p ?_, rfl⟩
        simpa [item, parametersOf, Item.contents, Item.contentsOf] using hp
      have hbound := Builder.bound_extend_clause path j f s.sink
      obtain ⟨calls, s', hcalls, hsink, more, hopened⟩ :=
        ih (s := ⟨s.sink.extend path [.clause j f], s.opened ++ []⟩)
          (getElem?_append_of_eq_some hon []) (hbound ▸ hrest)
      refine ⟨_, s', performAll_append (performAll_singleton hcall) hcalls, ?_, more, ?_⟩
      · rw [hsink, Builder.extend_extend, List.singleton_append]
      · simpa using hopened
  | group j inner rest ihInner ih =>
      rw [Item.contents, Item.contentsOf, bindable_append] at hbind
      obtain ⟨hinner, hrest⟩ := hbind
      have hcall : (group on j).perform s = .ok ⟨s.sink.extend path [.group j []],
          s.opened ++ [(Item.openAt path j s.sink.items).1]⟩ :=
        (perform_builder_eq_ok_iff hon).mpr ⟨fun _ hp ↦ absurd hp List.not_mem_nil, rfl⟩
      have hbound : (s.sink.extend path [.group j []]).bound = s.sink.bound := by
        rw [Builder.extend_group]
      obtain ⟨innerCalls, middle, hinnerCalls, hfilled, more, hmore⟩ :=
        ihInner (s := ⟨s.sink.extend path [.group j []],
            s.opened ++ [(Item.openAt path j s.sink.items).1]⟩)
          List.getElem?_concat_length (hbound ▸ hinner)
      have hmiddle : middle.sink = s.sink.extend path [.group j inner] :=
        hfilled.trans (Builder.extend_extend_group path j inner s.sink)
      have hkept : middle.opened[on]? = some path := by
        rw [hmore]
        exact getElem?_append_of_eq_some (getElem?_append_of_eq_some hon _) more
      have hmiddleBound : middle.sink.bound =
          s.sink.bound ++ parametersOf (Item.contents inner) := by
        rw [hmiddle]
        simp [Builder.extend, Item.contents, Item.contentsOf]
      obtain ⟨calls, s', hcalls, hsink, others, hopened⟩ := ih hkept (hmiddleBound ▸ hrest)
      refine ⟨_, s', performAll_append (performAll_singleton hcall)
        (performAll_append hinnerCalls hcalls), ?_,
        (Item.openAt path j s.sink.items).1 :: (more ++ others), ?_⟩
      · rw [hsink, hmiddle, Builder.extend_extend, List.singleton_append]
      · simp [hopened, hmore]

end Call

end Criteria.Clause
