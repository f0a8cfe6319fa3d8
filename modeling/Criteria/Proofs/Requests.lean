import Criteria.Proofs.Replay
import Criteria.Proofs.WordNames

/-!
# Requests to a where clause

Clauses, groups and trees are requested one after the other, on the where clause itself or on a
group that is open in it.  What a request asks for does not depend on the sink, and when all
requests have succeeded it is in the sink, at whatever depth.
-/

namespace Criteria.Clause

open Sql (WhereClause)

/-! ## Requests -/

/-- A sink that adds clauses whose join is still to be read. -/
class RequestSink (σ : Type) extends Sink σ where
  /-- A clause at the end of the group at a path. -/
  addClauseBy : Path → Value → (query : String) → Parameters → EStateM Fault σ Unit

instance : RequestSink Builder where
  addClauseBy := Builder.addClauseBy

instance : RequestSink WhereClause where
  addClauseBy := WhereClause.addClauseBy

/-- The group with a number, or the sink itself if no such group has been opened. -/
def Session.place {σ : Type} (s : Session σ) (on : Nat) : Path := s.opened.getD on []

/-- A request to a sink: for a clause, for a group to be opened, or for a tree with the registry and
the identifiers of its own compiler. -/
inductive Request where
  | clause (on : Nat) (join : Value) (query : String) (parameters : Parameters)
  | group (on : Nat) (join : Value)
  | tree (on : Nat) (registry : Registry) (base join filter : Value) (ids : IdSource)

namespace Request

variable {σ : Type} [RequestSink σ]

/-- A session after a request. -/
def perform : Request → Session σ → Except Fault (Session σ)
  | clause on join query parameters, s =>
    match RequestSink.addClauseBy (s.place on) join query parameters s.sink with
    | .ok () sink => .ok { s with sink }
    | .error fault _ => .error fault
  | group on join, s =>
    match joinOf join with
    | .ok j =>
      match Sink.openGroup (s.place on) j s.sink with
      | (inner, sink) => .ok ⟨sink, s.opened ++ [inner]⟩
    | .error fault => .error fault
  | tree on registry base join filter ids, s =>
    match FilterTree.apply registry base (s.place on) join filter ⟨s.sink, ids⟩ with
    | .ok () composed => .ok { s with sink := composed.sink }
    | .error fault _ => .error fault

/-- A session after several requests, all of which succeed. -/
def performAll : List Request → Session σ → Except Fault (Session σ)
  | [], s => .ok s
  | request :: rest, s =>
    match request.perform s with
    | .ok s => performAll rest s
    | .error fault => .error fault

/-- The number of the group that a request is made on. -/
def on : Request → Nat
  | clause on _ _ _ => on
  | group on _ => on
  | tree on _ _ _ _ _ => on

/-- The items that a request asks for. -/
def items : Request → List (Item Fragment)
  | clause _ join query parameters =>
    match joinOf join with
    | .ok j => [.clause j ⟨query, parameters⟩]
    | .error _ => []
  | group _ join =>
    match joinOf join with
    | .ok j => [.group j []]
    | .error _ => []
  | tree _ registry base join filter ids =>
    match joinOf join with
    | .ok j =>
      match (FilterTree.stage registry base j filter ids).1 with
      | .ok staged => staged.items
      | .error _ => []
    | .error _ => []

/-- The clauses that a request contributes. -/
def contributes (request : Request) : List Fragment := Item.contents request.items

/-- The clauses that requests contribute, in order. -/
def contributions (requests : List Request) : List Fragment := requests.flatMap contributes

theorem items_clause {on : Nat} {join : Value} {j : Join} (h : joinOf join = .ok j)
    (query : String) (parameters : Parameters) :
    (clause on join query parameters).items = [.clause j ⟨query, parameters⟩] := by
  simp only [Request.items, h]

theorem items_group {on : Nat} {join : Value} {j : Join} (h : joinOf join = .ok j) :
    (group on join).items = [.group j []] := by
  simp only [Request.items, h]

theorem items_tree {on : Nat} {registry : Registry} {base join : Value} {j : Join}
    {entries : List (Value × Value)} {ids ids' : IdSource} {items : List (Item Fragment)}
    (hjoin : joinOf join = .ok j)
    (hitems : FilterTree.Composes registry base j entries ids items ids')
    (hbind : Bindable [] (Item.contents items)) :
    (tree on registry base join (.dict entries) ids).items = items := by
  have hstage : FilterTree.stage registry base j (.dict entries) ids =
      (.ok (Builder.empty.extend [] items), ids') :=
    FilterTree.stage_eq_ok_iff.mpr ⟨entries, items, rfl, hitems, hbind, rfl⟩
  simp only [Request.items, hjoin, hstage]
  rfl

theorem perform_clause {on : Nat} {join : Value} {query : String} {parameters : Parameters}
    {s s' : Session σ} (h : (clause on join query parameters).perform s = .ok s') :
    ∃ sink, RequestSink.addClauseBy (s.place on) join query parameters s.sink = .ok () sink ∧
      s' = { s with sink } := by
  simp only [perform] at h
  cases hadd : RequestSink.addClauseBy (s.place on) join query parameters s.sink with
  | error fault sink => simp [hadd] at h
  | ok _ sink =>
      simp only [hadd, Except.ok.injEq] at h
      exact ⟨sink, rfl, h.symm⟩

theorem perform_group {on : Nat} {join : Value} {s s' : Session σ}
    (h : (group on join).perform s = .ok s') : ∃ j, joinOf join = .ok j ∧
      s' = ⟨(Sink.openGroup (s.place on) j s.sink).2,
        s.opened ++ [(Sink.openGroup (s.place on) j s.sink).1]⟩ := by
  simp only [perform] at h
  cases hjoin : joinOf join with
  | error fault => simp [hjoin] at h
  | ok j =>
      simp only [hjoin, Except.ok.injEq] at h
      exact ⟨j, rfl, h.symm⟩

/-- A tree asks for the items that it composes to, and these are replayed into the sink. -/
theorem perform_tree {on : Nat} {registry : Registry} {base join filter : Value} {ids : IdSource}
    {s s' : Session σ} (h : (tree on registry base join filter ids).perform s = .ok s') :
    ∃ sink, replay (s.place on) (tree on registry base join filter ids).items s.sink =
      .ok () sink ∧ s' = { s with sink } := by
  simp only [perform] at h
  cases happly : FilterTree.apply registry base (s.place on) join filter ⟨s.sink, ids⟩ with
  | error fault composed => simp [happly] at h
  | ok _ composed =>
      simp only [happly, Except.ok.injEq] at h
      obtain ⟨j, entries, items, hjoin, rfl, hitems, hbind, hreplay⟩ :=
        FilterTree.apply_eq_ok_iff.mp happly
      rw [items_tree hjoin hitems hbind]
      exact ⟨composed.sink, hreplay, h.symm⟩

/-- What each request keeps up, while it adds its clauses to some fragments, a run keeps up. -/
theorem performAll_induction {Holds : Session σ → List Fragment → Prop}
    (step : ∀ {request : Request} {s s' : Session σ} {fragments : List Fragment},
      Holds s fragments → request.perform s = .ok s' →
        Holds s' (fragments ++ request.contributes))
    {requests : List Request} {s s' : Session σ} {fragments : List Fragment}
    (h : Holds s fragments) (hs : performAll requests s = .ok s') :
    Holds s' (fragments ++ contributions requests) := by
  induction requests generalizing s fragments with
  | nil =>
      simp only [performAll, Except.ok.injEq] at hs
      simpa [contributions] using hs ▸ h
  | cons request rest ih =>
      simp only [performAll] at hs
      cases hrequest : request.perform s with
      | error fault => simp [hrequest] at hs
      | ok middle =>
          simp only [hrequest] at hs
          have hrest := ih (step h hrequest) hs
          rwa [List.append_assoc] at hrest

end Request

/-! ## Open groups -/

/-- How the open groups change with items that are added at a path: a group that is opened is the
last one. -/
def Opened {α : Type} (path : Path) (new items : List (Item α)) (before after : List Path) : Prop :=
  after = before ∨ ∃ j, new = [.group j []] ∧ after = before ++ [(Item.openAt path j items).1]

/-- All groups of a session are open in its items. -/
def AllOpen {α : Type} (opened : List Path) (items : List (Item α)) : Prop :=
  ∀ path ∈ opened, Item.IsOpen path items

theorem AllOpen.place {α σ : Type} {s : Session σ} {items : List (Item α)}
    (h : AllOpen s.opened items) (on : Nat) : Item.IsOpen (s.place on) items := by
  rw [Session.place, List.getD_eq_getElem?_getD]
  cases hpath : s.opened[on]? with
  | none => trivial
  | some path => exact h path (List.mem_of_getElem? hpath)

theorem AllOpen.extend {α : Type} {before after : List Path} {path : Path}
    {new items : List (Item α)} (h : AllOpen before items) (hpath : Item.IsOpen path items)
    (hopened : Opened path new items before after) :
    AllOpen after (Item.extendAt path new items) := by
  rcases hopened with rfl | ⟨j, rfl, rfl⟩
  · exact fun other hother ↦ (h other hother).extendAt path new
  · intro other hother
    rcases List.mem_append.mp hother with hother | hother
    · exact (h other hother).extendAt path _
    · obtain rfl := List.mem_singleton.mp hother
      have hinner := Item.isOpen_openAt hpath j
      rwa [Item.openAt, Item.appendAt_eq_extendAt] at hinner

namespace Request

/-! ## Requests to a builder -/

theorem addClauseBy_builder {path : Path} {join : Value} {query : String}
    {parameters : Parameters} {b b' : Builder}
    (h : Builder.addClauseBy path join query parameters b = .ok () b') :
    ∃ j, joinOf join = .ok j ∧ Bindable b.bound [⟨query, parameters⟩] ∧
      b' = b.extend path [.clause j ⟨query, parameters⟩] := by
  simp only [Builder.addClauseBy, Builder.bind] at h
  cases hname : b.conflict? parameters with
  | some name => simp [hname] at h
  | none =>
      have hnames := Builder.conflict?_eq_none_iff.mp hname
      cases hjoin : joinOf join with
      | error fault => simp [hname, hjoin] at h
      | ok j =>
          simp only [hname, hjoin, EStateM.Result.ok.injEq, true_and] at h
          refine ⟨j, rfl, ⟨hnames, trivial⟩, ?_⟩
          rw [← h, Item.appendAt_eq_extendAt]
          simp [Builder.extend, parametersOf, Item.contents, Item.contentsOf]

/-- What a request does to a builder: its parameters can be bound, and its items are added. -/
theorem perform_builder {request : Request} {s s' : Session Builder}
    (h : request.perform s = .ok s') :
    Bindable s.sink.bound request.contributes ∧
      s'.sink = s.sink.extend (s.place request.on) request.items ∧
      Opened (s.place request.on) request.items s.sink.items s.opened s'.opened := by
  cases request with
  | clause on join query parameters =>
      obtain ⟨sink, hadd, rfl⟩ := perform_clause h
      obtain ⟨j, hjoin, hbind, rfl⟩ := addClauseBy_builder hadd
      rw [contributes, items_clause hjoin]
      exact ⟨hbind, rfl, Or.inl rfl⟩
  | group on join =>
      obtain ⟨j, hjoin, rfl⟩ := perform_group h
      have hsink : Builder.mk (Item.appendAt (s.place on) (.group j []) s.sink.items)
          s.sink.bound = s.sink.extend (s.place on) [.group j []] := by
        rw [Item.appendAt_eq_extendAt]
        simp [Builder.extend, parametersOf, Item.contents, Item.contentsOf]
      rw [contributes, items_group hjoin]
      exact ⟨trivial, hsink, Or.inr ⟨j, rfl, rfl⟩⟩
  | tree on registry base join filter ids =>
      obtain ⟨sink, hreplay, rfl⟩ := perform_tree h
      obtain ⟨hbind, hsink⟩ := Builder.replay_eq_ok_iff.mp hreplay
      exact ⟨hbind, hsink, Or.inl rfl⟩

/-! ## Requests to a where clause of texts -/

theorem addClauseBy_whereClause {path : Path} {join : Value} {query : String}
    {parameters : Parameters} {w w' : WhereClause}
    (h : WhereClause.addClauseBy path join query parameters w = .ok () w') :
    ∃ j t, joinOf join = .ok j ∧ boundText ⟨query, parameters⟩ = .ok t ∧
      w'.items = Item.extendAt path [.clause j t] w.items := by
  simp only [WhereClause.addClauseBy] at h
  cases hjoin : joinOf join with
  | error fault => simp [hjoin] at h
  | ok j =>
      simp only [hjoin] at h
      cases hadd : w.addClause path j query parameters with
      | error fault => simp [hadd] at h
      | ok added =>
          simp only [hadd, EStateM.Result.ok.injEq, true_and] at h
          subst h
          obtain ⟨t, ht, hitems⟩ := items_of_addClause_whereClause hadd
          exact ⟨j, t, rfl, ht, hitems⟩

/-- What a request does to a where clause of texts: its items are added with their texts bound. -/
theorem perform_whereClause {request : Request} {s s' : Session WhereClause}
    (h : request.perform s = .ok s') :
    ∃ new, BoundAs request.items new ∧
      s'.sink.items = Item.extendAt (s.place request.on) new s.sink.items ∧
      Opened (s.place request.on) new s.sink.items s.opened s'.opened := by
  cases request with
  | clause on join query parameters =>
      obtain ⟨sink, hadd, rfl⟩ := perform_clause h
      obtain ⟨j, t, hjoin, ht, hitems⟩ := addClauseBy_whereClause hadd
      rw [items_clause hjoin]
      exact ⟨[.clause j t], BoundAs.clause ht j, hitems, Or.inl rfl⟩
  | group on join =>
      obtain ⟨j, hjoin, rfl⟩ := perform_group h
      have hsink : Item.appendAt (s.place on) (.group j []) s.sink.items =
          Item.extendAt (s.place on) [.group j []] s.sink.items :=
        Item.appendAt_eq_extendAt (s.place on) (.group j []) s.sink.items
      rw [items_group hjoin]
      exact ⟨[.group j []], rfl, hsink, Or.inr ⟨j, rfl, rfl⟩⟩
  | tree on registry base join filter ids =>
      obtain ⟨sink, hreplay, rfl⟩ := perform_tree h
      obtain ⟨new, hnew, hreplayed⟩ := replay_whereClause hreplay
      have hsink : sink = ⟨Item.extendAt (s.place on) new s.sink.items⟩ := by
        simpa [hreplay] using hreplayed (s.place on) s.sink
      exact ⟨new, hnew, congrArg WhereClause.items hsink, Or.inl rfl⟩

end Request

/-! ## Runs of requests -/

/-- A builder that holds some fragments and the parameters of all of them. -/
structure Session.Gathers (s : Session Builder) (fragments : List Fragment) : Prop where
  allOpen : AllOpen s.opened s.sink.items
  contents : (Item.contents s.sink.items).Perm fragments
  bound : s.sink.bound = parametersOf fragments
  bindable : Bindable [] fragments

/-- A where clause that holds the texts of some fragments. -/
structure Session.GathersTexts (s : Session WhereClause) (fragments : List Fragment) : Prop where
  allOpen : AllOpen s.opened s.sink.items
  texts : ∃ texts, fragments.map boundText = texts.map .ok ∧
    (Item.contents s.sink.items).Perm texts

namespace Session

theorem gathers_start : (Session.start Builder.empty).Gathers [] where
  allOpen := by simp [AllOpen, Session.start, Item.IsOpen]
  contents := .nil
  bound := rfl
  bindable := trivial

theorem gathersTexts_start : (Session.start WhereClause.empty).GathersTexts [] where
  allOpen := by simp [AllOpen, Session.start, Item.IsOpen]
  texts := ⟨[], rfl, .nil⟩

theorem Gathers.perform {request : Request} {s s' : Session Builder} {fragments : List Fragment}
    (h : s.Gathers fragments) (hs : request.perform s = .ok s') :
    s'.Gathers (fragments ++ request.contributes) := by
  obtain ⟨hbind, hsink, hopened⟩ := Request.perform_builder hs
  have hplace : Item.IsOpen (s.place request.on) s.sink.items := h.allOpen.place request.on
  have hbound : s.sink.bound ++ parametersOf (Item.contents request.items) =
      parametersOf (fragments ++ request.contributes) := by
    rw [h.bound, parametersOf, parametersOf, parametersOf, List.flatMap_append]
    rfl
  refine ⟨?_, ?_, ?_, ?_⟩
  · rw [hsink]
    exact h.allOpen.extend hplace hopened
  · rw [hsink]
    exact (Item.contents_extendAt_perm hplace request.items).trans (h.contents.append_right _)
  · rw [hsink]
    exact hbound
  · rw [bindable_append, List.nil_append, ← h.bound]
    exact ⟨h.bindable, hbind⟩

theorem GathersTexts.perform {request : Request} {s s' : Session WhereClause}
    {fragments : List Fragment} (h : s.GathersTexts fragments)
    (hs : request.perform s = .ok s') : s'.GathersTexts (fragments ++ request.contributes) := by
  obtain ⟨new, hnew, hitems, hopened⟩ := Request.perform_whereClause hs
  have hplace : Item.IsOpen (s.place request.on) s.sink.items := h.allOpen.place request.on
  obtain ⟨texts, htexts, hperm⟩ := h.texts
  refine ⟨?_, texts ++ Item.contents new, ?_, ?_⟩
  · rw [hitems]
    exact h.allOpen.extend hplace hopened
  · rw [List.map_append, List.map_append, htexts, Request.contributes, hnew.map_contents]
  · rw [hitems]
    exact (Item.contents_extendAt_perm hplace new).trans (hperm.append_right _)

end Session

end Criteria.Clause
