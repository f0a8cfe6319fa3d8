import Criteria.Clause.Builder
import Criteria.Proofs.Places
import Criteria.Sql.WhereClause

/-!
# Calls on sinks

A sink is filled by calls that add a clause to it or open a group in it, on the sink itself or on a
group that an earlier call has opened.  What the calls do to the joins and to the nesting does not
depend on the sink.
-/

namespace Criteria.Clause

/-- A sink in use: the places of the groups opened so far, of which the first is the sink itself. -/
structure Session (σ : Type) where
  sink : σ
  opened : List Path

/-- A sink of which no group has been opened. -/
def Session.start {σ : Type} (sink : σ) : Session σ := ⟨sink, [[]]⟩

/-- A call on one of the groups that have been opened. -/
inductive Call where
  | clause (on : Nat) (join : Join) (query : String) (parameters : Parameters)
  | group (on : Nat) (join : Join)

namespace Call

/-- Whether a call says something: the text of a clause must not be empty. -/
def IsWritten : Call → Prop
  | clause _ _ query _ => query ≠ ""
  | group _ _ => True

variable {σ : Type} [Sink σ]

/-- A session after a call.  There is no call on a group that has not been opened. -/
def perform : Call → Session σ → Except Fault (Session σ)
  | clause on j query parameters, s =>
    match s.opened[on]? with
    | some path =>
      match Sink.addClause path j query parameters s.sink with
      | .ok sink => .ok { s with sink }
      | .error fault => .error fault
    | none => .ok s
  | group on j, s =>
    match s.opened[on]? with
    | some path =>
      match Sink.openGroup path j s.sink with
      | (inner, sink) => .ok ⟨sink, s.opened ++ [inner]⟩
    | none => .ok s

/-- A session after several calls, all of which succeed. -/
def performAll : List Call → Session σ → Except Fault (Session σ)
  | [], s => .ok s
  | call :: rest, s =>
    match call.perform s with
    | .ok s => performAll rest s
    | .error fault => .error fault

theorem perform_clause {on : Nat} {j : Join} {query : String} {parameters : Parameters}
    {s s' : Session σ} (h : (clause on j query parameters).perform s = .ok s') :
    (s.opened[on]? = none ∧ s' = s) ∨ ∃ path sink, s.opened[on]? = some path ∧
      Sink.addClause path j query parameters s.sink = .ok sink ∧ s' = { s with sink } := by
  simp only [perform] at h
  cases hpath : s.opened[on]? with
  | none =>
      simp only [hpath, Except.ok.injEq] at h
      exact Or.inl ⟨rfl, h.symm⟩
  | some path =>
      simp only [hpath] at h
      cases hsink : Sink.addClause path j query parameters s.sink with
      | error fault => simp [hsink] at h
      | ok sink =>
          simp only [hsink, Except.ok.injEq] at h
          exact Or.inr ⟨path, sink, rfl, hsink, h.symm⟩

theorem perform_group {on : Nat} {j : Join} {s s' : Session σ}
    (h : (group on j).perform s = .ok s') :
    (s.opened[on]? = none ∧ s' = s) ∨ ∃ path, s.opened[on]? = some path ∧
      s' = ⟨(Sink.openGroup path j s.sink).2, s.opened ++ [(Sink.openGroup path j s.sink).1]⟩ := by
  simp only [perform] at h
  cases hpath : s.opened[on]? with
  | none =>
      simp only [hpath, Except.ok.injEq] at h
      exact Or.inl ⟨rfl, h.symm⟩
  | some path =>
      simp only [hpath, Except.ok.injEq] at h
      exact Or.inr ⟨path, rfl, h.symm⟩

theorem performAll_cons {call : Call} {rest : List Call} {s s' : Session σ}
    (h : performAll (call :: rest) s = .ok s') :
    ∃ middle, call.perform s = .ok middle ∧ performAll rest middle = .ok s' := by
  simp only [performAll] at h
  cases hcall : call.perform s with
  | error fault => simp [hcall] at h
  | ok middle =>
      simp only [hcall] at h
      exact ⟨middle, rfl, h⟩

end Call

/-! ## What calls do to the items -/

theorem Builder.items_of_addClause {path : Path} {j : Join} {query : String}
    {parameters : Parameters} {b b' : Builder}
    (h : Sink.addClause path j query parameters b = .ok b') :
    b'.items = Item.extendAt path [.clause j ⟨query, parameters⟩] b.items := by
  change Builder.addClause path j query parameters b = .ok b' at h
  simp only [Builder.addClause, Builder.bind] at h
  cases hname : b.conflict? parameters with
  | some name => simp [hname] at h
  | none =>
      simp only [hname, Except.ok.injEq] at h
      rw [← h, ← Item.appendAt_eq_extendAt]

theorem items_of_addClause_whereClause {path : Path} {j : Join} {query : String}
    {parameters : Parameters} {w w' : Sql.WhereClause}
    (h : Sink.addClause path j query parameters w = .ok w') :
    ∃ t, Sql.BoundText.ofFragment query parameters = .ok t ∧
      w'.items = Item.extendAt path [.clause j t] w.items := by
  change Sql.WhereClause.addClause path j query parameters w = .ok w' at h
  simp only [Sql.WhereClause.addClause] at h
  cases ht : Sql.BoundText.ofFragment query parameters with
  | error fault => simp [ht] at h
  | ok t =>
      simp only [ht, Except.ok.injEq] at h
      exact ⟨t, rfl, by rw [← h, ← Item.appendAt_eq_extendAt]⟩

/-- The text with bound parameters that a fragment becomes. -/
def boundText (f : Fragment) : Except Fault Sql.BoundText :=
  Sql.BoundText.ofFragment f.query f.parameters

/-- Texts in the places of the fragments that they were made from, with the same joins and the same
nesting. -/
def BoundAs (items : List (Item Fragment)) (texts : List (Item Sql.BoundText)) : Prop :=
  Item.relabel boundText items = Item.relabel .ok texts

theorem BoundAs.itemsAt {items : List (Item Fragment)} {texts : List (Item Sql.BoundText)}
    (h : BoundAs items texts) (path : Path) :
    BoundAs (Item.itemsAt path items) (Item.itemsAt path texts) := by
  rw [BoundAs, Item.relabel_itemsAt, Item.relabel_itemsAt, h]

theorem BoundAs.extendAt {items new : List (Item Fragment)}
    {texts newer : List (Item Sql.BoundText)} (h : BoundAs items texts)
    (hnew : BoundAs new newer) (path : Path) :
    BoundAs (Item.extendAt path new items) (Item.extendAt path newer texts) := by
  rw [BoundAs, Item.relabel_extendAt, Item.relabel_extendAt, h, hnew]

theorem BoundAs.map_contents {items : List (Item Fragment)} {texts : List (Item Sql.BoundText)}
    (h : BoundAs items texts) : (Item.contents items).map boundText =
      (Item.contents texts).map .ok := by
  rw [← Item.contents_relabel, ← Item.contents_relabel, h]

theorem BoundAs.clause {f : Fragment} {t : Sql.BoundText} (h : boundText f = .ok t) (j : Join) :
    BoundAs [.clause j f] [.clause j t] := by
  simp only [BoundAs, Item.relabel, Item.relabelOf, h]

/-- The clauses of the two sinks stand for each other, and the same groups are open in them. -/
structure Session.Alike (s : Session Builder) (t : Session Sql.WhereClause) : Prop where
  bound : BoundAs s.sink.items t.sink.items
  opened : s.opened = t.opened

theorem Call.alike_perform {call : Call} {s s' : Session Builder}
    {t t' : Session Sql.WhereClause} (h : s.Alike t) (hs : call.perform s = .ok s')
    (ht : call.perform t = .ok t') : s'.Alike t' := by
  obtain ⟨hbound, hopened⟩ := h
  cases call with
  | clause on j query parameters =>
      rcases perform_clause hs with ⟨hs, rfl⟩ | ⟨path, b, hpath, hb, rfl⟩ <;>
        rcases perform_clause ht with ⟨ht, rfl⟩ | ⟨place, w, hplace, hw, rfl⟩
      · exact ⟨hbound, hopened⟩
      · simp [hopened, hplace] at hs
      · simp [hopened, ht] at hpath
      · obtain rfl : path = place := by simpa [hopened, hplace, eq_comm] using hpath
        obtain ⟨text, htext, hitems⟩ := items_of_addClause_whereClause hw
        have hclause : BoundAs [.clause j ⟨query, parameters⟩] [.clause j text] :=
          BoundAs.clause (f := ⟨query, parameters⟩) htext j
        refine ⟨?_, hopened⟩
        rw [Builder.items_of_addClause hb, hitems]
        exact hbound.extendAt hclause path
  | group on j =>
      rcases perform_group hs with ⟨hs, rfl⟩ | ⟨path, hpath, rfl⟩ <;>
        rcases perform_group ht with ⟨ht, rfl⟩ | ⟨place, hplace, rfl⟩
      · exact ⟨hbound, hopened⟩
      · simp [hopened, hplace] at hs
      · simp [hopened, ht] at hpath
      · obtain rfl : path = place := by simpa [hopened, hplace, eq_comm] using hpath
        constructor
        · exact (Item.relabel_openAt boundText path j s.sink.items).trans
            ((congrArg _ hbound).trans (Item.relabel_openAt Except.ok path j t.sink.items).symm)
        · have hinner := Item.openAt_fst_eq_of_relabel_eq hbound path j
          change s.opened ++ [(Item.openAt path j s.sink.items).1] =
            t.opened ++ [(Item.openAt path j t.sink.items).1]
          rw [hopened, hinner]

theorem Call.alike_performAll {calls : List Call} {s s' : Session Builder}
    {t t' : Session Sql.WhereClause} (h : s.Alike t) (hs : performAll calls s = .ok s')
    (ht : performAll calls t = .ok t') : s'.Alike t' := by
  induction calls generalizing s t with
  | nil =>
      simp only [performAll, Except.ok.injEq] at hs ht
      exact hs ▸ ht ▸ h
  | cons call rest ih =>
      obtain ⟨b, hb, hs⟩ := performAll_cons hs
      obtain ⟨w, hw, ht⟩ := performAll_cons ht
      exact ih (alike_perform h hb hw) hs ht

/-- Written calls leave nothing but written clauses in a builder. -/
theorem Call.written_perform {call : Call} (hcall : call.IsWritten) {s s' : Session Builder}
    (h : ∀ f ∈ Item.contents s.sink.items, f.query ≠ "") (hs : call.perform s = .ok s') :
    ∀ f ∈ Item.contents s'.sink.items, f.query ≠ "" := by
  intro f hf
  cases call with
  | clause on j query parameters =>
      rcases perform_clause hs with ⟨-, rfl⟩ | ⟨path, b, -, hb, rfl⟩
      · exact h f hf
      · rw [Builder.items_of_addClause hb] at hf
        rcases Item.mem_contents_extendAt hf with hold | hnew
        · exact h f hold
        · obtain rfl : f = ⟨query, parameters⟩ := by
            simpa [Item.contents, Item.contentsOf] using hnew
          exact hcall
  | group on j =>
      rcases perform_group hs with ⟨-, rfl⟩ | ⟨path, -, rfl⟩
      · exact h f hf
      · change f ∈ Item.contents (Item.appendAt path (.group j []) s.sink.items) at hf
        rw [Item.appendAt_eq_extendAt] at hf
        rcases Item.mem_contents_extendAt hf with hold | hnew
        · exact h f hold
        · simp [Item.contents, Item.contentsOf] at hnew

theorem Call.written_performAll {calls : List Call} (hcalls : ∀ call ∈ calls, call.IsWritten)
    {s s' : Session Builder} (h : ∀ f ∈ Item.contents s.sink.items, f.query ≠ "")
    (hs : performAll calls s = .ok s') : ∀ f ∈ Item.contents s'.sink.items, f.query ≠ "" := by
  induction calls generalizing s with
  | nil =>
      simp only [performAll, Except.ok.injEq] at hs
      exact hs ▸ h
  | cons call rest ih =>
      obtain ⟨middle, hcall, hs⟩ := performAll_cons hs
      exact ih (fun c hc ↦ hcalls c (List.mem_cons_of_mem call hc))
        (written_perform (hcalls call List.mem_cons_self) h hcall) hs

end Criteria.Clause
