import Criteria.Proofs.FailedCalls
import Criteria.Proofs.Staging
import Criteria.Proofs.Workspaces

/-!
# Workspaces that any actions lead to

A clause whose join cannot be read leaves its names bound without a clause.  Beneath these leftover
names a workspace is balanced, whatever has been done in it: there is a balanced workspace with the
same items and the same handles.  So each clause still has its names for itself, and all of them are
bound.
-/

namespace Criteria.Clause

/-- The workspaces that actions lead to, of whatever kind and whether they fail or not. -/
inductive Workspace.Attained : Workspace → Prop where
  | start : Attained ⟨[], []⟩
  | perform {w : Workspace} (h : Attained w) (a : Action) : Attained (a.perform w).2

/-! ## Leftover names -/

/-- A builder to which another one adds nothing but names. -/
structure Builder.Underlies (b₀ b : Builder) : Prop where
  items : b₀.items = b.items
  free : ∀ name, b.bound.binds name = false → b₀.bound.binds name = false

/-- A builder that has grown at a path, with names left over perhaps. -/
def Builder.Swells (path : Path) (b b' : Builder) : Prop :=
  ∃ middle, b.Grows path middle ∧ middle.Underlies b'

namespace Builder

variable {b₀ b b' b'' : Builder} {path : Path}

theorem Underlies.refl (b : Builder) : b.Underlies b := ⟨rfl, fun _ h ↦ h⟩

theorem Underlies.trans (h : b.Underlies b') (h' : b'.Underlies b'') : b.Underlies b'' :=
  ⟨h.items.trans h'.items, fun name hname ↦ h.free name (h'.free name hname)⟩

theorem underlies_append (b : Builder) (more : Parameters) :
    b.Underlies ⟨b.items, b.bound ++ more⟩ :=
  ⟨rfl, fun name hname ↦ by rw [binds_append, Bool.or_eq_false_iff] at hname; exact hname.1⟩

theorem Underlies.extend (h : b₀.Underlies b) (path : Path) (items : List (Item Fragment)) :
    (b₀.extend path items).Underlies (b.extend path items) := by
  refine ⟨congrArg (Item.extendAt path items) h.items, fun name hname ↦ ?_⟩
  rw [Builder.extend, binds_append, Bool.or_eq_false_iff] at hname ⊢
  exact ⟨h.free name hname.1, hname.2⟩

theorem Underlies.exists_grows (h : b₀.Underlies b) (hgrows : b.Grows path b') :
    ∃ b₀', b₀.Grows path b₀' ∧ b₀'.Underlies b' := by
  obtain ⟨items, hbind, hnodup, rfl⟩ := hgrows
  exact ⟨b₀.extend path items, ⟨items, hbind.anti h.free, hnodup, rfl⟩, h.extend path items⟩

theorem Underlies.exists_swells (h : b₀.Underlies b) (hswells : b.Swells path b') :
    ∃ b₀', b₀.Grows path b₀' ∧ b₀'.Underlies b' := by
  obtain ⟨middle, hgrows, hmiddle⟩ := hswells
  obtain ⟨b₀', hgrows', hbeneath⟩ := h.exists_grows hgrows
  exact ⟨b₀', hgrows', hbeneath.trans hmiddle⟩

theorem Grows.swells (h : b.Grows path b') : b.Swells path b' := ⟨b', h, .refl b'⟩

theorem swells_addClauseBy (path : Path) (join : Value) (query : String) {parameters : Parameters}
    (hnodup : (parameters.map (·.1)).Nodup) (b : Builder) :
    b.Swells path (stateAfter (addClauseBy path join query parameters b)) := by
  cases hjoin : joinOf join with
  | ok j => exact (Grows.addClauseBy hjoin path query hnodup b).swells
  | error fault =>
      cases hrun : addClauseBy path join query parameters b with
      | ok _ b' =>
          obtain ⟨j, hj, -⟩ := Request.addClauseBy_builder hrun
          rw [hjoin] at hj
          cases hj
      | error other b' =>
          rcases SinkCall.addClauseBy_builder_eq_error_iff.mp hrun with
            ⟨name, -, -, rfl⟩ | ⟨-, -, rfl⟩
          · exact (Grows.refl path b').swells
          · exact ⟨b, .refl path b, underlies_append b parameters⟩

end Builder

/-- A condition that is added as a clause is compiled first, and then its fragment is added. -/
theorem stateAfter_jobStep_clause (registry : Registry) (ids : IdSource) (on : Nat)
    (fieldAlias condition join : Value) (path : Path) (b : Builder) :
    stateAfter (jobStep registry ids (.clause on fieldAlias condition join) path b) =
      match compileFragment registry fieldAlias condition ids with
      | .ok f _ => stateAfter (Builder.addClauseBy path join f.query f.parameters b)
      | .error _ _ => b := by
  cases hcompile : compileFragment registry fieldAlias condition ids with
  | error fault left =>
      simp [jobStep, Job.compose, bind, EStateM.bind, Composing.onIds, hcompile, stateAfter]
  | ok f left =>
      cases hadd : Builder.addClauseBy path join f.query f.parameters b <;>
        simp [jobStep, Job.compose, bind, EStateM.bind, pure, EStateM.pure, Composing.onIds,
          Composing.onSink, hcompile, hadd, stateAfter]

theorem swells_jobStep (registry : Registry) (ids : IdSource) (job : Job) (path : Path)
    (b : Builder) : b.Swells path (stateAfter (jobStep registry ids job path b)) := by
  cases job with
  | clause on fieldAlias condition join =>
      rw [stateAfter_jobStep_clause]
      cases hcompile : compileFragment registry fieldAlias condition ids with
      | error fault left => exact (Builder.Grows.refl path b).swells
      | ok f left =>
          exact Builder.swells_addClauseBy path join _ (nodup_names_of_compileFragment hcompile) b
  | _ =>
      refine Builder.Grows.swells (grows_jobStep registry ids ?_ path b)
      rintro _ _ _ _ ⟨⟩

/-! ## Workspaces with leftover names -/

/-- A workspace to whose builders another one adds nothing but names. -/
structure Workspace.Underlies (w₀ w : Workspace) : Prop where
  handles : w₀.handles = w.handles
  builders : List.Forall₂ Builder.Underlies w₀.builders w.builders

namespace Workspace

variable {w₀ w : Workspace}

theorem forall₂_set {α β : Type} {R : α → β → Prop} {as : List α} {bs : List β}
    (h : List.Forall₂ R as bs) {a : α} {b : β} (hab : R a b) (i : Nat) :
    List.Forall₂ R (as.set i a) (bs.set i b) := by
  induction h generalizing i with
  | nil => exact .nil
  | cons hfirst hrest ih =>
      cases i with
      | zero => exact .cons hab hrest
      | succ i => exact .cons hfirst (ih i)

theorem Underlies.exists_getElem? (h : w₀.Underlies w) {i : Nat} {b : Builder}
    (hb : w.builders[i]? = some b) : ∃ b₀, w₀.builders[i]? = some b₀ ∧ b₀.Underlies b := by
  obtain ⟨hi, rfl⟩ := List.getElem?_eq_some_iff.mp hb
  have hi₀ : i < w₀.builders.length := h.builders.length_eq ▸ hi
  exact ⟨_, List.getElem?_eq_getElem hi₀, h.builders.get hi₀ hi⟩

theorem Underlies.itemsAt_eq (h : w₀.Underlies w) (handle : Handle) :
    w₀.itemsAt handle = w.itemsAt handle := by
  rw [Workspace.itemsAt, Workspace.itemsAt]
  cases hb : w.builders[handle.builder]? with
  | none =>
      have hb₀ : w₀.builders[handle.builder]? = none := by
        rw [List.getElem?_eq_none_iff] at hb ⊢
        rwa [h.builders.length_eq]
      rw [hb₀]
  | some b =>
      obtain ⟨b₀, hb₀, hbeneath⟩ := h.exists_getElem? hb
      simp only [hb₀, hbeneath.items]

/-- A step that lets the builder swell at its place is a step of growth beneath. -/
theorem Underlies.exists_stepAt (h : w₀.Underlies w) (hw₀ : w₀.IsBalanced)
    {step : Path → EStateM Fault Builder (List Path)}
    (hswells : ∀ (path : Path) (b : Builder), b.Swells path (stateAfter (step path b)))
    (hopened : ∀ {path b opened b'}, step path b = .ok opened b' → Item.IsOpen path b.items →
      ∀ inner ∈ opened, Item.IsOpen inner b'.items) (on : Nat) :
    ∃ w₀' : Workspace, w₀'.IsBalanced ∧ w₀'.Underlies (w.stepAt on step).2 := by
  rw [Workspace.stepAt]
  cases hhandle : w.handles[on]? with
  | none => exact ⟨w₀, hw₀, h⟩
  | some handle =>
      cases hb : w.builders[handle.builder]? with
      | none =>
          simp only [hb]
          exact ⟨w₀, hw₀, h⟩
      | some b =>
          obtain ⟨b₀, hb₀, hbeneath⟩ := h.exists_getElem? hb
          obtain ⟨c, hc, hopen⟩ := hw₀.handles handle
            (h.handles ▸ List.mem_of_getElem? hhandle)
          obtain rfl : b₀ = c := Option.some.inj (hb₀.symm.trans hc)
          -- The builder beneath takes the same items and leaves out the names that are left over.
          obtain ⟨b₀', hgrows, hbeneath'⟩ := hbeneath.exists_swells (hswells handle.path b)
          simp only [hb]
          cases hrun : step handle.path b with
          | ok opened b' =>
              rw [hrun] at hbeneath'
              have hinner : ∀ inner ∈ opened, Item.IsOpen inner b₀'.items := fun inner hmem ↦
                hbeneath'.items ▸ hopened hrun (hbeneath.items ▸ hopen) inner hmem
              exact ⟨_, hw₀.set hb₀ hopen hgrows hinner, congrArg (· ++ _) h.handles,
                forall₂_set h.builders hbeneath' _⟩
          | error fault b' =>
              rw [hrun] at hbeneath'
              have hnone : ∀ inner ∈ ([] : List Path), Item.IsOpen inner b₀'.items :=
                fun _ hinner ↦ absurd hinner List.not_mem_nil
              have hset := hw₀.set hb₀ hopen hgrows hnone
              rw [List.map_nil, List.append_nil] at hset
              exact ⟨_, hset, h.handles, forall₂_set h.builders hbeneath' _⟩

theorem Underlies.exists_perform (h : w₀.Underlies w) (hw₀ : w₀.IsBalanced) (a : Action) :
    ∃ w₀' : Workspace, w₀'.IsBalanced ∧ w₀'.Underlies (a.perform w).2 := by
  cases a with
  | create =>
      refine ⟨_, hw₀.create, ?_, ?_⟩
      · change w₀.handles ++ [⟨w₀.builders.length, []⟩] = w.handles ++ [⟨w.builders.length, []⟩]
        rw [h.handles, h.builders.length_eq]
      · exact List.rel_append h.builders (.cons (.refl _) .nil)
  | clause on join query pairs =>
      apply h.exists_stepAt hw₀
      · intro path b
        rw [IsBalanced.stateAfter_map]
        exact Builder.swells_addClauseBy path join query (Parameters.nodup_names_ofPairs pairs) b
      · intro path b opened b' hrun _
        rw [IsBalanced.nil_of_map hrun]
        nofun
  | replay source on =>
      apply h.exists_stepAt hw₀
      · intro path b
        rw [IsBalanced.stateAfter_map]
        refine Builder.Grows.swells (.replay ?_ path b)
        cases w.handles[source]? with
        | none => nofun
        | some handle =>
            have hnodup := hw₀.nodup_names_of_itemsAt handle
            rwa [h.itemsAt_eq] at hnodup
      · intro path b opened b' hrun _
        rw [IsBalanced.nil_of_map hrun]
        nofun
  | job registry ids done =>
      apply h.exists_stepAt hw₀
      · exact swells_jobStep registry ids done
      · exact isOpen_of_jobStep

namespace Attained

theorem foldl (h : w.Attained) (actions : List Action) :
    (actions.foldl (fun w a ↦ (a.perform w).2) w).Attained := by
  induction actions generalizing w with
  | nil => exact h
  | cons a rest ih => exact ih (h.perform a)

/-- Beneath the names that are left over, any actions lead to a balanced workspace. -/
theorem exists_balanced (h : w.Attained) : ∃ w₀ : Workspace, w₀.IsBalanced ∧ w₀.Underlies w := by
  induction h with
  | start => exact ⟨⟨[], []⟩, ⟨nofun, nofun⟩, rfl, .nil⟩
  | perform h a ih =>
      obtain ⟨w₀, hw₀, hbeneath⟩ := ih
      exact hbeneath.exists_perform hw₀ a

theorem exists_builder (h : w.Attained) {handle : Handle} (hhandle : handle ∈ w.handles) :
    ∃ b, w.builders[handle.builder]? = some b ∧ Item.IsOpen handle.path b.items := by
  obtain ⟨w₀, hw₀, hbeneath⟩ := h.exists_balanced
  obtain ⟨b₀, hb₀, hopen⟩ := hw₀.handles handle (hbeneath.handles ▸ hhandle)
  obtain ⟨hi, -⟩ := List.getElem?_eq_some_iff.mp hb₀
  have hb := List.getElem?_eq_getElem (hbeneath.builders.length_eq ▸ hi)
  obtain ⟨c, hc, hunder⟩ := hbeneath.exists_getElem? hb
  obtain rfl : b₀ = c := Option.some.inj (hb₀.symm.trans hc)
  exact ⟨_, hb, hunder.items ▸ hopen⟩

/-- The clauses of a builder have different names, and these are bound. -/
theorem nodup_names (h : w.Attained) {i : Nat} {b : Builder} (hb : w.builders[i]? = some b) :
    ((parametersOf (Item.contents b.items)).map (·.1)).Nodup ∧
      ∀ p ∈ parametersOf (Item.contents b.items), b.bound.binds p.1 = true := by
  obtain ⟨w₀, hw₀, hbeneath⟩ := h.exists_balanced
  obtain ⟨b₀, hb₀, hunder⟩ := hbeneath.exists_getElem? hb
  have hbalanced := hw₀.builders b₀ (List.mem_of_getElem? hb₀)
  rw [← hunder.items]
  refine ⟨(hbalanced.bound.map _).nodup_iff.mp hbalanced.nodup, fun p hp ↦ ?_⟩
  have hp₀ : b₀.bound.binds p.1 = true :=
    List.any_eq_true.mpr ⟨p, hbalanced.bound.mem_iff.mpr hp, by simp⟩
  cases hbinds : b.bound.binds p.1 with
  | true => rfl
  | false =>
      rw [hunder.free p.1 hbinds] at hp₀
      cases hp₀

end Attained

end Workspace

end Criteria.Clause
