import Mathlib.Data.List.Find
import Mathlib.Data.List.Flatten
import Criteria.Proofs.DirectCalls
import Criteria.Proofs.Leftovers

/-!
# A replay is a copy

What a handle leads to is replayed somewhere else.  Its clauses have different names, whatever has
been done before, so the replay fails just when one of the names is bound at its target.  Otherwise
the target has got the items in the end and all else is as it was, and a where clause of texts gets
what it would have got by the calls that the items came from.
-/

namespace Criteria.Clause

open Sql (WhereClause)

/-! ## Names that clash in a replay -/

theorem binds_eq_false_of_nodup {ps qs : Parameters} (h : ((ps ++ qs).map (·.1)).Nodup) :
    ∀ q ∈ qs, ps.binds q.1 = false := by
  rw [List.map_append, List.nodup_append] at h
  intro q hq
  apply List.any_eq_false.mpr
  intro p hp hsame
  exact h.2.2 p.1 (List.mem_map_of_mem hp) q.1 (List.mem_map_of_mem hq) (by simpa using hsame)

theorem bindable_iff_of_nodup {bound : Parameters} {fragments : List Fragment}
    (h : ((parametersOf fragments).map (·.1)).Nodup) :
    Bindable bound fragments ↔ ∀ p ∈ parametersOf fragments, bound.binds p.1 = false := by
  refine ⟨Bindable.binds_eq_false, fun hfree ↦ ?_⟩
  induction fragments generalizing bound with
  | nil => trivial
  | cons f rest ih =>
      rw [parametersOf, List.flatMap_cons] at h hfree
      have hrest : ((parametersOf rest).map (·.1)).Nodup := by
        rw [List.map_append, List.nodup_append] at h
        exact h.2.1
      refine ⟨fun p hp ↦ hfree p (List.mem_append_left _ hp), ih hrest fun p hp ↦ ?_⟩
      rw [binds_append, hfree p (List.mem_append_right _ hp), Bool.false_or]
      exact binds_eq_false_of_nodup h p hp

namespace Builder

theorem conflict?_append (b : Builder) (ps qs : Parameters) :
    b.conflict? (ps ++ qs) = (b.conflict? ps).or (b.conflict? qs) := by
  rw [conflict?, List.find?_append, Option.map_or, conflict?, conflict?]

theorem conflict?_extend {path : Path} {items : List (Item Fragment)} {ps : Parameters}
    (h : ∀ p ∈ ps, (parametersOf (Item.contents items)).binds p.1 = false) (b : Builder) :
    (b.extend path items).conflict? ps = b.conflict? ps := by
  refine congrArg (Option.map _) (List.find?_congr fun p hp ↦ ?_)
  rw [extend, binds_append, h p hp, Bool.or_false]

/-- Of items with different names the first name that is bound stops a replay. -/
theorem faultOf?_replay {items : List (Item Fragment)}
    (h : ((parametersOf (Item.contents items)).map (·.1)).Nodup) (path : Path) (b : Builder) :
    faultOf? (replay path items b) = (b.conflict? (parametersOf (Item.contents items))).map
      fun name ↦ .condition (.nameBound name) := by
  cases hrun : replay path items b with
  | ok _ b' =>
      obtain ⟨hbind, -⟩ := replay_eq_ok_iff.mp hrun
      rw [conflict?_eq_none_iff.mpr hbind.binds_eq_false]
      rfl
  | error fault b' =>
      obtain ⟨f, front, name, hfront, hbind, hconflict, rfl, -⟩ := replay_eq_error_iff.mp hrun
      obtain ⟨others, hothers⟩ := hfront.contents_eq
      have hsplit : parametersOf (Item.contents items) =
          parametersOf (Item.contents front) ++ (f.parameters ++ parametersOf others) := by
        rw [hothers, parametersOf, List.flatMap_append, List.flatMap_cons]
        rfl
      rw [hsplit] at h ⊢
      -- The clause that stops the replay does not clash with those in front of it.
      have hown : b.conflict? f.parameters = some name := by
        rw [← hconflict, conflict?_extend]
        exact fun p hp ↦ binds_eq_false_of_nodup h p (List.mem_append_left _ hp)
      rw [conflict?_append, conflict?_eq_none_iff.mpr hbind.binds_eq_false, conflict?_append, hown]
      rfl

end Builder

/-! ## Copies in a workspace -/

namespace Workspace

/-- The parameters that are bound where a handle leads to. -/
def boundAt (w : Workspace) (h : Handle) : Parameters :=
  match w.builders[h.builder]? with
  | some b => b.bound
  | none => []

/-- A workspace before and after the items that one handle leads to have been copied to where
another one leads.  Nothing else has changed, the source least of all. -/
structure Copied (source target : Handle) (w w' : Workspace) : Prop where
  source_items : w'.itemsAt source = w.itemsAt source
  source_bound : w'.boundAt source = w.boundAt source
  target_items : w'.itemsAt target = w.itemsAt target ++ w.itemsAt source
  target_bound : w'.boundAt target =
    w.boundAt target ++ parametersOf (Item.contents (w.itemsAt source))
  apart_items : ∀ h ∈ w.handles, ¬target.IsWithin h → w'.itemsAt h = w.itemsAt h
  other_builders : ∀ i, i ≠ target.builder → w'.builders[i]? = w.builders[i]?
  handles : w'.handles = w.handles

variable {w : Workspace} {source on : Nat} {s t h : Handle} {b : Builder}

theorem itemsAt_eq (hb : w.builders[h.builder]? = some b) :
    w.itemsAt h = Item.itemsAt h.path b.items := by
  rw [itemsAt, hb]

theorem boundAt_eq (hb : w.builders[h.builder]? = some b) : w.boundAt h = b.bound := by
  rw [boundAt, hb]

theorem perform_replay (hs : w.handles[source]? = some s) (ht : w.handles[on]? = some t)
    (hb : w.builders[t.builder]? = some b) : (Action.replay source on).perform w =
      (faultOf? (replay t.path (w.itemsAt s) b),
        ⟨w.builders.set t.builder (stateAfter (replay t.path (w.itemsAt s) b)), w.handles⟩) := by
  rw [Action.perform, stepAt, ht]
  simp only [hb, hs, Option.map_some, Option.getD_some]
  cases hrun : replay t.path (w.itemsAt s) b with
  | ok _ b' =>
      have hstep : ((fun _ ↦ ([] : List Path)) <$> replay t.path (w.itemsAt s)) b = .ok [] b' :=
        map_eq_ok_iff.mpr ⟨(), hrun, rfl⟩
      simp [hstep, faultOf?, stateAfter]
  | error fault b' =>
      have hstep : ((fun _ ↦ ([] : List Path)) <$> replay t.path (w.itemsAt s)) b =
          .error fault b' := map_eq_error_iff.mpr hrun
      simp [hstep, faultOf?, stateAfter]

theorem Attained.nodup_names_of_itemsAt (hw : w.Attained) (h : Handle) :
    ((parametersOf (Item.contents (w.itemsAt h))).map (·.1)).Nodup ∧
      ∀ p ∈ parametersOf (Item.contents (w.itemsAt h)), (w.boundAt h).binds p.1 = true := by
  cases hb : w.builders[h.builder]? with
  | none => simp [itemsAt, hb, Item.contents, parametersOf]
  | some b =>
      obtain ⟨hnodup, hbound⟩ := hw.nodup_names hb
      have hnames : (parametersOf (Item.contents (Item.itemsAt h.path b.items))).Sublist
          (parametersOf (Item.contents b.items)) :=
        (Item.contents_itemsAt_sublist h.path b.items).flatMap _
      rw [itemsAt_eq hb, boundAt_eq hb]
      exact ⟨hnodup.sublist (hnames.map _), fun p hp ↦ hbound p (hnames.subset hp)⟩

/-- What is appended at a handle is not seen from a handle that is apart from it. -/
theorem itemsAt_set_extend {a : Builder} (hb : w.builders[t.builder]? = some b)
    (ha : w.builders[h.builder]? = some a) (hopen : Item.IsOpen h.path a.items)
    (hapart : ¬t.IsWithin h) (items : List (Item Fragment)) :
    itemsAt ⟨w.builders.set t.builder (b.extend t.path items), w.handles⟩ h = w.itemsAt h := by
  rw [itemsAt, itemsAt]
  by_cases hsame : t.builder = h.builder
  · rw [← hsame] at ha ⊢
    obtain ⟨hi, -⟩ := List.getElem?_eq_some_iff.mp hb
    obtain rfl : b = a := Option.some.inj (hb.symm.trans ha)
    simp only [List.getElem?_set_self hi, hb]
    exact Item.itemsAt_extendAt_of_not_prefix (fun hprefix ↦ hapart ⟨hsame, hprefix⟩)
      (Or.inl hopen)
  · simp only [List.getElem?_set_ne hsame]

theorem Attained.copied (hw : w.Attained) (hs : s ∈ w.handles) (ht : t ∈ w.handles)
    (hapart : ¬t.IsWithin s) (hb : w.builders[t.builder]? = some b)
    (hfree : ∀ p ∈ parametersOf (Item.contents (w.itemsAt s)), b.bound.binds p.1 = false) :
    Copied s t w ⟨w.builders.set t.builder (b.extend t.path (w.itemsAt s)), w.handles⟩ := by
  obtain ⟨hi, -⟩ := List.getElem?_eq_some_iff.mp hb
  have hnew : (w.builders.set t.builder (b.extend t.path (w.itemsAt s)))[t.builder]? =
      some (b.extend t.path (w.itemsAt s)) := List.getElem?_set_self hi
  have hkept : ∀ h ∈ w.handles, ¬t.IsWithin h →
      itemsAt ⟨w.builders.set t.builder (b.extend t.path (w.itemsAt s)), w.handles⟩ h =
        w.itemsAt h := by
    intro h hh hout
    obtain ⟨a, ha, hopen⟩ := hw.exists_builder hh
    exact itemsAt_set_extend hb ha hopen hout _
  refine ⟨hkept s hs hapart, ?_, ?_, ?_, hkept, fun i hi ↦ List.getElem?_set_ne (Ne.symm hi), rfl⟩
  · by_cases hsame : t.builder = s.builder
    · -- The source has its names bound in the same builder, so it has none.
      have hnone : parametersOf (Item.contents (w.itemsAt s)) = [] := by
        rw [List.eq_nil_iff_forall_not_mem]
        intro p hp
        have hbound := (hw.nodup_names_of_itemsAt s).2 p hp
        rw [boundAt, ← hsame, hb, hfree p hp] at hbound
        cases hbound
      rw [boundAt, boundAt, ← hsame]
      simp only [hnew, hb]
      rw [Builder.extend, hnone, List.append_nil]
    · rw [boundAt, boundAt, List.getElem?_set_ne hsame]
  · obtain ⟨c, hc, hopen⟩ := hw.exists_builder ht
    obtain rfl : b = c := Option.some.inj (hb.symm.trans hc)
    rw [itemsAt_eq (h := t) hnew, itemsAt_eq hb]
    exact Item.itemsAt_extendAt hopen _
  · rw [boundAt_eq (h := t) hnew, boundAt_eq hb, Builder.extend]

theorem Attained.exists_performAll (hw : w.Attained) (i : Nat) :
    ∃ calls c, Call.performAll calls (.start Builder.empty) = .ok c ∧
      c.sink.items = w.itemsAt ⟨i, []⟩ := by
  have hbind : Bindable [] (Item.contents (w.itemsAt ⟨i, []⟩)) :=
    (bindable_iff_of_nodup (hw.nodup_names_of_itemsAt ⟨i, []⟩).1).mpr fun _ _ ↦ rfl
  have hon : (Session.start Builder.empty).opened[0]? = some [] := rfl
  obtain ⟨calls, c, hcalls, hsink, -⟩ := Call.exists_performAll hon hbind
  exact ⟨calls, c, hcalls, congrArg Builder.items hsink⟩

/-- A replay is a faithful copy.  What a handle leads to can be replayed into a builder, or into a
group that is open in it, just when none of its names is bound there, and otherwise the replay fails
at the first name that is.  If it succeeds, the target has its old items and then those of the
source, its builder has its old parameters and then those of the clauses of the source from the
left, and nothing else has changed.  In a where clause, or in a group of it, a replay comes to the
same as making the calls there by which the items of the source have been added to its builder. -/
theorem replay_copies (hw : w.Attained) (hs : w.handles[source]? = some s)
    (ht : w.handles[on]? = some t) (hapart : ¬t.IsWithin s) :
    ((Action.replay source on).perform w).1 =
        ((parametersOf (Item.contents (w.itemsAt s))).find? fun p ↦
          (w.boundAt t).binds p.1).map (fun p ↦ .condition (.nameBound p.1)) ∧
      (((Action.replay source on).perform w).1 ≠ none ↔
        ∃ f ∈ Item.contents (w.itemsAt s), ∃ p ∈ f.parameters,
          (w.boundAt t).binds p.1 = true) ∧
      (((Action.replay source on).perform w).1 = none →
        Copied s t w ((Action.replay source on).perform w).2) ∧
      (∃ calls c, Call.performAll calls (.start Builder.empty) = .ok c ∧
        c.sink.items = w.itemsAt ⟨s.builder, []⟩) ∧
      ∀ calls c, Call.performAll calls (.start Builder.empty) = .ok c →
        c.sink.items = w.itemsAt ⟨s.builder, []⟩ →
        ∀ (v v' : WhereClause) (path : Path), Item.IsOpen path v.items →
          (replay path (w.itemsAt s) v = .ok () v' ↔
            ∃ d, Call.performAll (Call.madeIn s.path calls (.start Builder.empty)) ⟨v, [path]⟩ =
              .ok d ∧ d.sink = v') := by
  obtain ⟨b, hb, -⟩ := hw.exists_builder (List.mem_of_getElem? ht)
  have hnodup := (hw.nodup_names_of_itemsAt s).1
  have hfault : ((Action.replay source on).perform w).1 =
      (b.conflict? (parametersOf (Item.contents (w.itemsAt s)))).map
        fun name ↦ .condition (.nameBound name) := by
    rw [perform_replay hs ht hb, Builder.faultOf?_replay hnodup]
  have hnone : ((Action.replay source on).perform w).1 = none ↔
      ∀ p ∈ parametersOf (Item.contents (w.itemsAt s)), b.bound.binds p.1 = false := by
    rw [hfault, Option.map_eq_none_iff, Builder.conflict?_eq_none_iff]
  rw [boundAt_eq hb]
  refine ⟨?_, ?_, fun hdone ↦ ?_, hw.exists_performAll s.builder, ?_⟩
  · rw [hfault, Builder.conflict?, Option.map_map]
    rfl
  · rw [Ne, hnone, parametersOf]
    simp only [List.forall_mem_flatMap, not_forall, Bool.not_eq_false, exists_prop]
  · have hfree := hnone.mp hdone
    have hreplay : replay t.path (w.itemsAt s) b = .ok () (b.extend t.path (w.itemsAt s)) :=
      Builder.replay_eq_ok_iff.mpr ⟨(bindable_iff_of_nodup hnodup).mpr hfree, rfl⟩
    rw [perform_replay hs ht hb, hreplay]
    exact hw.copied (List.mem_of_getElem? hs) (List.mem_of_getElem? ht) hapart hb hfree
  · intro calls c hcalls hitems v v' path hpath
    have hsource : w.itemsAt s = Item.itemsAt s.path c.sink.items := by
      obtain ⟨a, ha, -⟩ := hw.exists_builder (List.mem_of_getElem? hs)
      rw [hitems, itemsAt_eq ha, itemsAt_eq (h := ⟨s.builder, []⟩) ha, Item.itemsAt]
    rw [hsource]
    exact replay_whereClause_iff_madeIn hcalls s.path hpath v'

/-- The steps to two builders with a group each.  In the first group there is an empty group between
two clauses, and in the second one a clause has failed and its name has been left over. -/
def groupSteps : List Action :=
  [.create, .create, .job Registry.full .standard (.group 0 (.text "OR")),
   .clause 2 (.text "AND") "a = :a" [("a", .int 1)],
   .clause 0 (.text "AND") "z = :z" [("z", .int 9)],
   .job Registry.full .standard (.group 2 (.text "AND")),
   .clause 2 (.text "OR") "b = :b" [("b", .int 2)],
   .job Registry.full .standard (.group 1 (.text "AND")),
   .clause 4 (.text "OR") "c = :c" [("c", .int 3)],
   .clause 4 (.text "XOR") "d = :d" [("d", .int 4)]]

def groupSample : Workspace := groupSteps.foldl (fun w a ↦ (a.perform w).2) ⟨[], []⟩

theorem attained_groupSample : groupSample.Attained := Attained.start.foldl groupSteps

/-- The first group is replayed into the second one, which cannot be done twice, and into a where
clause. -/
theorem replay_copies_group :
    ∃ (w w' : Workspace) (s t : Handle) (v : WhereClause) (d : Session WhereClause), w.Attained ∧
      w.handles[2]? = some s ∧ w.handles[4]? = some t ∧
      (Action.replay 2 4).perform w = (none, w') ∧ Copied s t w w' ∧
      (w'.builders.map fun b ↦ (b.build []).query) =
        ["(a = :a OR b = :b) AND z = :z", "(c = :c AND a = :a OR b = :b)"] ∧
      (w'.boundAt t).map (·.1) = ["c", "d", "a", "b"] ∧
      ((Action.replay 2 4).perform w').1 = some (.condition (.nameBound "a")) ∧
      replay [] (w.itemsAt s) WhereClause.empty = .ok () v ∧
      Call.performAll [.clause 0 .and "a = :a" [("a", .int 1)], .group 0 .and,
        .clause 0 .or "b = :b" [("b", .int 2)]] (.start WhereClause.empty) = .ok d ∧
      d.sink = v := by
  have hs : groupSample.handles[2]? = some ⟨0, [0]⟩ := rfl
  have ht : groupSample.handles[4]? = some ⟨1, [0]⟩ := rfl
  have hapart : ¬Handle.IsWithin ⟨1, [0]⟩ ⟨0, [0]⟩ := fun h ↦ absurd h.1 (by decide)
  obtain ⟨-, -, hcopied, -, hcalls⟩ := replay_copies attained_groupSample hs ht hapart
  have hdone : ((Action.replay 2 4).perform groupSample).1 = none := rfl
  have hdirect := (hcalls [.group 0 .or, .clause 1 .and "a = :a" [("a", .int 1)],
    .clause 0 .and "z = :z" [("z", .int 9)], .group 1 .and,
    .clause 1 .or "b = :b" [("b", .int 2)]] _ rfl rfl .empty _ [] trivial).mp rfl
  obtain ⟨d, hd, hsink⟩ := hdirect
  exact ⟨groupSample, _, _, _, _, d, attained_groupSample, hs, ht, Prod.ext hdone rfl,
    hcopied hdone, by decide, by decide, rfl, rfl, hd, hsink⟩

end Workspace

end Criteria.Clause
