import Criteria.Proofs.Failure
import Criteria.Proofs.Requests
import Criteria.Proofs.Rejections

/-!
# Calls that fail

A clause or a group is asked for with a join that is still to be read, and the call may fail.  A
where clause of texts is then as it was.  A builder is as it was too, but for one kind of call: it
binds the parameters of a clause before it reads the join, and a join that cannot be read leaves the
names bound without a clause.
-/

namespace Criteria.Clause

open Sql (WhereClause)

/-- A call on a sink for a clause or for a group. -/
inductive SinkCall where
  | clause (join : Value) (query : String) (parameters : Parameters)
  | group (join : Value)

namespace SinkCall

variable {σ : Type} [RequestSink σ]

/-- A call on the group at a path, with the groups that it opens. -/
def perform (path : Path) : SinkCall → EStateM Fault σ (List Path)
  | clause join query parameters =>
    (fun _ ↦ []) <$> RequestSink.addClauseBy path join query parameters
  | group join =>
    match joinOf join with
    | .ok j => (fun inner ↦ [inner]) <$> openIn path j
    | .error fault => throw fault

def parameters : SinkCall → Parameters
  | clause _ _ parameters => parameters
  | group _ => []

/-- The call again, with another join. -/
def withJoin (join : Value) : SinkCall → SinkCall
  | clause _ query parameters => clause join query parameters
  | group _ => group join

/-- A call that binds names in a builder and then fails: its join cannot be read, it has parameters,
and none of their names is bound yet. -/
def Leaks (b : Builder) : SinkCall → Prop
  | clause join _ parameters =>
    (∃ fault, joinOf join = .error fault) ∧ parameters ≠ [] ∧ b.conflict? parameters = none
  | group _ => False

/-- A call after which a sink is as it was, if it fails. -/
def KeepsOnFailure (path : Path) (call : SinkCall) (s : σ) : Prop :=
  ∀ fault s', call.perform path s = .error fault s' → s' = s

theorem openIn_ne_error {path : Path} {j : Join} {fault : Fault} {s s' : σ} :
    openIn path j s ≠ .error fault s' := by
  rw [openIn]
  exact nofun

theorem keepsOnFailure_group (path : Path) (join : Value) (s : σ) :
    (group join).KeepsOnFailure path s := by
  intro fault s' h
  rw [perform] at h
  cases hjoin : joinOf join with
  | ok j =>
      simp only [hjoin, map_eq_error_iff] at h
      exact absurd h openIn_ne_error
  | error other =>
      simp only [hjoin, throw_apply, EStateM.Result.error.injEq] at h
      exact h.2.symm

/-! ## A where clause of texts -/

theorem addClauseBy_whereClause_eq_error {path : Path} {join : Value} {query : String}
    {parameters : Parameters} {fault : Fault} {w w' : WhereClause}
    (h : WhereClause.addClauseBy path join query parameters w = .error fault w') : w' = w := by
  rw [WhereClause.addClauseBy] at h
  cases hjoin : joinOf join with
  | error other =>
      simp only [hjoin, EStateM.Result.error.injEq] at h
      exact h.2.symm
  | ok j =>
      simp only [hjoin] at h
      cases hadd : w.addClause path j query parameters with
      | ok added => simp [hadd] at h
      | error other =>
          simp only [hadd, EStateM.Result.error.injEq] at h
          exact h.2.symm

theorem keepsOnFailure_whereClause (path : Path) (call : SinkCall) (w : WhereClause) :
    call.KeepsOnFailure path w := by
  cases call with
  | group join => exact keepsOnFailure_group path join w
  | clause join query parameters =>
      intro fault w' h
      exact addClauseBy_whereClause_eq_error (map_eq_error_iff.mp h)

/-! ## A builder -/

/-- A clause fails in a builder at a name that is bound, and only then at its join. -/
theorem addClauseBy_builder_eq_error_iff {path : Path} {join : Value} {query : String}
    {parameters : Parameters} {fault : Fault} {b b' : Builder} :
    Builder.addClauseBy path join query parameters b = .error fault b' ↔
      (∃ name, b.conflict? parameters = some name ∧ fault = .condition (.nameBound name) ∧
        b' = b) ∨
      (b.conflict? parameters = none ∧ joinOf join = .error fault ∧
        b' = ⟨b.items, b.bound ++ parameters⟩) := by
  rw [Builder.addClauseBy, Builder.bind]
  cases b.conflict? parameters with
  | some name => simp [eq_comm]
  | none =>
      cases joinOf join with
      | error other => simp [eq_comm]
      | ok j => simp

theorem addClauseBy_builder_eq_ok {path : Path} {join : Value} {j : Join} {query : String}
    {parameters : Parameters} {b : Builder} (hjoin : joinOf join = .ok j)
    (hnames : b.conflict? parameters = none) :
    Builder.addClauseBy path join query parameters b =
      .ok () (b.extend path [.clause j ⟨query, parameters⟩]) := by
  have hadded : b.extend path [.clause j ⟨query, parameters⟩] =
      ⟨Item.appendAt path (.clause j ⟨query, parameters⟩) b.items, b.bound ++ parameters⟩ := by
    simp [Builder.extend, Item.appendAt_eq_extendAt, parametersOf, Item.contents, Item.contentsOf]
  simp only [Builder.addClauseBy, Builder.bind, hnames, hjoin, hadded]

theorem conflict?_bound_append (items : List (Item Fragment)) (bound : Parameters)
    (first : String × Value) (rest : Parameters) :
    (Builder.mk items (bound ++ first :: rest)).conflict? (first :: rest) = some first.1 := by
  have hbinds : (bound ++ first :: rest).binds first.1 = true := by
    rw [binds_append]
    simp [Parameters.binds]
  simp [Builder.conflict?, hbinds]

/-- The calls that change a builder when they fail are those that leak names. -/
theorem keepsOnFailure_builder_iff {path : Path} {call : SinkCall} {b : Builder} :
    call.KeepsOnFailure path b ↔ ¬call.Leaks b := by
  cases call with
  | group join => exact iff_of_true (keepsOnFailure_group path join b) not_false
  | clause join query parameters =>
      constructor
      · rintro hkeeps ⟨⟨fault, hjoin⟩, hsome, hnames⟩
        have hrun : Builder.addClauseBy path join query parameters b =
            .error fault ⟨b.items, b.bound ++ parameters⟩ :=
          addClauseBy_builder_eq_error_iff.mpr (Or.inr ⟨hnames, hjoin, rfl⟩)
        have hsame := hkeeps fault _ (map_eq_error_iff.mpr hrun)
        exact hsome (List.append_right_eq_self.mp (congrArg Builder.bound hsame))
      · intro hleaks fault b' h
        rcases addClauseBy_builder_eq_error_iff.mp (map_eq_error_iff.mp h) with
          ⟨name, -, -, rfl⟩ | ⟨hnames, hjoin, rfl⟩
        · rfl
        · -- Without parameters there is nothing to be left behind.
          have hnone : parameters = [] :=
            Classical.byContradiction fun hsome ↦ hleaks ⟨⟨fault, hjoin⟩, hsome, hnames⟩
          rw [hnone, List.append_nil]

/-- Whatever fails, the items of a builder stay, in every group, and with them its text. -/
theorem items_of_perform_eq_error {path : Path} {call : SinkCall} {fault : Fault} {b b' : Builder}
    (h : call.perform path b = .error fault b') : b'.items = b.items := by
  cases call with
  | group join => exact congrArg Builder.items (keepsOnFailure_group path join b fault b' h)
  | clause join query parameters =>
      rcases addClauseBy_builder_eq_error_iff.mp (map_eq_error_iff.mp h) with
        ⟨name, -, -, rfl⟩ | ⟨-, -, rfl⟩ <;> rfl

/-- A call that leaks binds its names, and the same call with a join that can be read, which would
have succeeded, then fails at the first of them. -/
theorem Leaks.retry_fails {path : Path} {call : SinkCall} {b : Builder} (h : call.Leaks b) :
    ∃ fault b', call.perform path b = .error fault b' ∧
      b'.bound = b.bound ++ call.parameters ∧
      ∀ join j, joinOf join = .ok j →
        (∃ after, (call.withJoin join).perform path b = .ok [] after) ∧
        ∃ name ∈ call.parameters.map (·.1),
          (call.withJoin join).perform path b' = .error (.condition (.nameBound name)) b' := by
  cases call with
  | group join => cases h
  | clause join query parameters =>
      obtain ⟨⟨fault, hjoin⟩, hsome, hnames⟩ := h
      obtain ⟨first, rest, rfl⟩ := List.exists_cons_of_ne_nil hsome
      have hrun : Builder.addClauseBy path join query (first :: rest) b =
          .error fault ⟨b.items, b.bound ++ first :: rest⟩ :=
        addClauseBy_builder_eq_error_iff.mpr (Or.inr ⟨hnames, hjoin, rfl⟩)
      refine ⟨fault, _, map_eq_error_iff.mpr hrun, rfl, fun retried j hretried ↦ ⟨?_, ?_⟩⟩
      · have hadd : Builder.addClauseBy path retried query (first :: rest) b =
            .ok () (b.extend path [.clause j ⟨query, first :: rest⟩]) :=
          addClauseBy_builder_eq_ok hretried hnames
        exact ⟨_, map_eq_ok_iff.mpr ⟨(), hadd, rfl⟩⟩
      · have hclash := conflict?_bound_append b.items b.bound first rest
        exact ⟨first.1, List.mem_cons_self, map_eq_error_iff.mpr
          (addClauseBy_builder_eq_error_iff.mpr (Or.inl ⟨first.1, hclash, rfl, rfl⟩))⟩

/-- A call that fails changes nothing in a where clause of texts.  In a builder it leaves the items,
and so the text, and it changes nothing at all exactly when it is not a clause with new names and a
join that cannot be read.  Of such a clause the names stay bound: with another join it is refused
afterwards, though it would have been added before. -/
theorem failed_call_leaves_names (path : Path) (call : SinkCall) (w : WhereClause) (b : Builder) :
    call.KeepsOnFailure path w ∧
      (∀ fault b', call.perform path b = .error fault b' → b'.items = b.items) ∧
      (call.KeepsOnFailure path b ↔ ¬call.Leaks b) ∧
      (call.Leaks b → ∃ fault b', call.perform path b = .error fault b' ∧
        b'.bound = b.bound ++ call.parameters ∧
        ∀ join j, joinOf join = .ok j →
          (∃ after, (call.withJoin join).perform path b = .ok [] after) ∧
          ∃ name ∈ call.parameters.map (·.1),
            (call.withJoin join).perform path b' = .error (.condition (.nameBound name)) b') :=
  ⟨keepsOnFailure_whereClause path call w, fun _ _ ↦ items_of_perform_eq_error,
    keepsOnFailure_builder_iff, Leaks.retry_fails⟩

/-- A clause in a group, with a join that is none. -/
theorem failed_call_leaves_names_exclusive :
    ∃ (call : SinkCall) (b b' : Builder) (fault : Fault),
      call = .clause (.text "XOR") "e.id = :id" [("id", .int 7)] ∧ b = ⟨[.group .and []], []⟩ ∧
      call.perform [0] b = .error fault b' ∧ b'.items = b.items ∧ b'.bound = [("id", .int 7)] ∧
      (call.withJoin (.text "OR")).perform [0] b' = .error (.condition (.nameBound "id")) b' := by
  obtain ⟨-, hitems, -, hleaks⟩ := failed_call_leaves_names [0]
    (.clause (.text "XOR") "e.id = :id" [("id", .int 7)]) WhereClause.empty
    ⟨[.group .and []], []⟩
  obtain ⟨fault, b', hrun, hbound, hretry⟩ := hleaks ⟨⟨_, rfl⟩, by decide, by decide⟩
  obtain ⟨-, name, hname, hagain⟩ := hretry (.text "OR") .or rfl
  obtain rfl := List.mem_singleton.mp hname
  exact ⟨_, _, b', fault, rfl, rfl, hrun, hitems fault b' hrun, hbound, hagain⟩

/-- A builder without any clause has a name bound after a call that has failed, and so refuses the
clause that it would have taken. -/
theorem clause_refused_after_failure :
    ∃ (query : String) (parameters : Parameters) (fault : Fault) (b' after : Builder),
      (SinkCall.clause (.text "XOR") query parameters).perform [] Builder.empty = .error fault b' ∧
      b' ≠ Builder.empty ∧
      (SinkCall.clause (.text "AND") query parameters).perform [] Builder.empty = .ok [] after ∧
      (SinkCall.clause (.text "AND") query parameters).perform [] b' =
        .error (.condition (.nameBound "p")) b' := by
  refine ⟨"a = :p", [("p", .int 1)], _, ⟨[], [("p", .int 1)]⟩, _, rfl, fun h ↦ ?_, rfl, rfl⟩
  cases congrArg Builder.bound h

end SinkCall

end Criteria.Clause
