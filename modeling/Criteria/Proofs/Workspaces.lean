import Mathlib.Data.List.Nodup
import Criteria.Proofs.Growth

/-!
# Builders side by side

Several builders are filled in one run, each of them and each group opened in it by way of a handle.
Clauses are added by hand, conditions and trees by whatever compilers, and what one handle leads to
is replayed into another.  Actions may fail midway and the run goes on.  At all times the parameters
of each builder are those of its clauses, every name once.
-/

namespace Criteria

namespace Parameters

theorem get?_of_mem {ps : Parameters} (h : (ps.map (·.1)).Nodup) {p : String × Value}
    (hp : p ∈ ps) : ps.get? p.1 = some p.2 := by
  induction ps with
  | nil => cases hp
  | cons first rest ih =>
      rw [List.map_cons, List.nodup_cons] at h
      obtain ⟨hfirst, hrest⟩ := h
      rcases List.mem_cons.mp hp with rfl | hp
      · simp [get?]
      · have hne : first.1 ≠ p.1 := fun heq ↦ hfirst (heq ▸ List.mem_map_of_mem hp)
        have hget := ih hrest hp
        rw [get?] at hget ⊢
        rwa [List.find?_cons_of_neg (by simpa using hne)]

theorem map_fst_put (name : String) (value : Value) (ps : Parameters) :
    (put name value ps).map (·.1) =
      if name ∈ ps.map (·.1) then ps.map (·.1) else ps.map (·.1) ++ [name] := by
  induction ps with
  | nil => rfl
  | cons first rest ih =>
      obtain ⟨n, v⟩ := first
      rw [put]
      by_cases h : n = name
      · simp [h]
      · rw [if_neg h, List.map_cons, ih]
        by_cases hmem : name ∈ rest.map (·.1)
        · simp [hmem]
        · simp [hmem, Ne.symm h]

/-- The parameters that come from pairs have different names. -/
theorem nodup_names_ofPairs (pairs : List (String × Value)) :
    ((ofPairs pairs).map (·.1)).Nodup := by
  have hput : ∀ (ps : Parameters), (ps.map (·.1)).Nodup →
      ((pairs.foldl (fun ps p ↦ put p.1 p.2 ps) ps).map (·.1)).Nodup := by
    induction pairs with
    | nil => exact fun _ h ↦ h
    | cons p rest ih =>
        intro ps h
        apply ih
        rw [map_fst_put]
        split
        · exact h
        · next hnew =>
            refine List.nodup_append.mpr ⟨h, List.nodup_singleton _, ?_⟩
            rintro _ hname _ hother rfl
            exact hnew (List.mem_singleton.mp hother ▸ hname)
  exact hput [] List.nodup_nil

end Parameters

namespace Clause

/-! ## Workspaces -/

/-- The way to a builder or to a group in it. -/
structure Handle where
  builder : Nat
  path : Path

/-- What a handle leads to lies in what another one leads to, or is the same. -/
def Handle.IsWithin (h other : Handle) : Prop :=
  h.builder = other.builder ∧ other.path <+: h.path

structure Workspace where
  builders : List Builder
  handles : List Handle

/-- What is done in a workspace.  A new builder is made, a clause is added whose join is still to be
read, the items that a handle leads to are replayed into another, or a job is done by a compiler
with some identifiers. -/
inductive Action where
  | create
  | clause (on : Nat) (join : Value) (query : String) (pairs : List (String × Value))
  | replay (source on : Nat)
  | job (registry : Registry) (ids : IdSource) (done : Job)

namespace Workspace

/-- The items that a handle leads to. -/
def itemsAt (w : Workspace) (h : Handle) : List (Item Fragment) :=
  match w.builders[h.builder]? with
  | some b => Item.itemsAt h.path b.items
  | none => []

/-- A workspace after a step on the builder that a handle leads to, with the handles to the groups
that the step has opened.  There is no step on a handle that is not there. -/
def stepAt (on : Nat) (step : Path → EStateM Fault Builder (List Path)) (w : Workspace) :
    Option Fault × Workspace :=
  match w.handles[on]? with
  | none => (none, w)
  | some h =>
    match w.builders[h.builder]? with
    | none => (none, w)
    | some b =>
      match step h.path b with
      | .ok opened b =>
        (none, ⟨w.builders.set h.builder b, w.handles ++ opened.map (⟨h.builder, ·⟩)⟩)
      | .error fault b => (some fault, ⟨w.builders.set h.builder b, w.handles⟩)

end Workspace

/-- A job by itself, on a builder.  The identifiers that are left are dropped. -/
def jobStep (registry : Registry) (ids : IdSource) (job : Job) (path : Path) :
    EStateM Fault Builder (List Path) := fun b ↦
  match job.compose registry path ⟨b, ids⟩ with
  | .ok opened c => .ok opened c.sink
  | .error fault c => .error fault c.sink

namespace Action

/-- A workspace after an action, and the fault of the action if it has failed. -/
def perform : Action → Workspace → Option Fault × Workspace
  | create, w =>
    (none, ⟨w.builders ++ [Builder.empty], w.handles ++ [⟨w.builders.length, []⟩]⟩)
  | clause on join query pairs, w =>
    w.stepAt on fun path ↦
      (fun _ ↦ []) <$> Builder.addClauseBy path join query (Parameters.ofPairs pairs)
  | replay source on, w =>
    w.stepAt on fun path ↦
      (fun _ ↦ []) <$> Clause.replay path ((w.handles[source]?.map w.itemsAt).getD [])
  | job registry ids done, w => w.stepAt done.on (jobStep registry ids done)

/-- An action that may be done: the joins of clauses can be read, and nothing is replayed into
itself. -/
def IsAllowed (w : Workspace) : Action → Prop
  | clause _ join _ _ => ∃ j, joinOf join = .ok j
  | replay source on => ∀ h h', w.handles[source]? = some h → w.handles[on]? = some h' →
    ¬h'.IsWithin h
  | job _ _ (.clause _ _ _ join) => ∃ j, joinOf join = .ok j
  | _ => True

end Action

/-- The workspaces that actions lead to, whether they fail or not. -/
inductive Workspace.Reachable : Workspace → Prop where
  | start : Reachable ⟨[], []⟩
  | perform {w : Workspace} (h : Reachable w) (a : Action) (ha : a.IsAllowed w) :
      Reachable (a.perform w).2

/-! ## Balanced builders -/

/-- A builder whose parameters are those of its clauses, every name once. -/
structure Builder.IsBalanced (b : Builder) : Prop where
  bound : b.bound.Perm (parametersOf (Item.contents b.items))
  nodup : (b.bound.map (·.1)).Nodup

namespace Builder.IsBalanced

variable {b : Builder}

theorem empty : Builder.empty.IsBalanced := ⟨.nil, List.nodup_nil⟩

theorem nodup_names (h : b.IsBalanced) {f : Fragment} (hf : f ∈ Item.contents b.items) :
    (f.parameters.map (·.1)).Nodup := by
  have hall : ((parametersOf (Item.contents b.items)).map (·.1)).Nodup :=
    (h.bound.map _).nodup_iff.mp h.nodup
  rw [parametersOf, List.map_flatMap] at hall
  exact (List.nodup_flatMap.mp hall).1 f hf

theorem grows (h : b.IsBalanced) {path : Path} (hpath : Item.IsOpen path b.items) {b' : Builder}
    (hgrows : b.Grows path b') : b'.IsBalanced := by
  obtain ⟨items, hbind, hnodup, rfl⟩ := hgrows
  constructor
  · have hcontents : (Item.contents (Item.extendAt path items b.items)).Perm
        (Item.contents b.items ++ Item.contents items) :=
      Item.contents_extendAt_perm hpath items
    have hparameters : (parametersOf (Item.contents (Item.extendAt path items b.items))).Perm
        (parametersOf (Item.contents b.items) ++ parametersOf (Item.contents items)) := by
      have hflat := hcontents.flatMap_right (·.parameters)
      rwa [List.flatMap_append] at hflat
    exact (h.bound.append_right _).trans hparameters.symm
  · have hnew := hbind.binds_eq_false
    rw [Builder.extend, List.map_append, List.nodup_append]
    refine ⟨h.nodup, hbind.nodup_names hnodup, ?_⟩
    rintro _ hname _ hother rfl
    obtain ⟨p, hp, hpname⟩ := List.mem_map.mp hname
    obtain ⟨q, hq, rfl⟩ := List.mem_map.mp hother
    have hbound : b.bound.binds q.1 = true := List.any_eq_true.mpr ⟨p, hp, by simp [hpname]⟩
    rw [hnew q hq] at hbound
    cases hbound

theorem get?_bound (h : b.IsBalanced) {f : Fragment} (hf : f ∈ Item.contents b.items)
    {p : String × Value} (hp : p ∈ f.parameters) : b.bound.get? p.1 = some p.2 :=
  Parameters.get?_of_mem h.nodup (h.bound.mem_iff.mpr (List.mem_flatMap.mpr ⟨f, hf, hp⟩))

theorem pairwise_apart (h : b.IsBalanced) : (Item.contents b.items).Pairwise Apart := by
  have hall : ((parametersOf (Item.contents b.items)).map (·.1)).Nodup :=
    (h.bound.map _).nodup_iff.mp h.nodup
  rw [parametersOf, List.map_flatMap] at hall
  refine (List.nodup_flatMap.mp hall).2.imp fun {f g} hdisjoint p hp ↦ ?_
  apply List.any_eq_false.mpr
  intro q hq hsame
  have heq : q.1 = p.1 := by simpa using hsame
  exact hdisjoint (List.mem_map_of_mem hq) (heq ▸ List.mem_map_of_mem hp)

end Builder.IsBalanced

/-! ## What actions do -/

theorem grows_jobStep (registry : Registry) (ids : IdSource) {job : Job}
    (hjob : ∀ on fieldAlias condition join, job = .clause on fieldAlias condition join →
      ∃ j, joinOf join = .ok j) (path : Path) (b : Builder) :
    b.Grows path (stateAfter (jobStep registry ids job path b)) := by
  have hadds : AddsAt path (job.compose registry path) := by
    cases job with
    | group on join =>
        rw [Job.compose]
        cases joinOf join with
        | error fault => exact .throw path fault
        | ok j => exact (AddsAt.onSink fun b ↦ .openGroup path j b).map _
    | tree on base join filter => exact (addsAt_apply registry path base join filter).map _
    | flat on base filters => exact (addsAt_applyFilters registry path base filters).map _
    | single on base field condition join =>
        exact (addsAt_applyCondition registry path base field condition join).map _
    | clause on fieldAlias condition join =>
        obtain ⟨j, hjoin⟩ := hjob on fieldAlias condition join rfl
        refine (AddsAt.onIds path _).bind fun f c c' hrun ↦ ?_
        obtain ⟨_, hcompile, -⟩ := Composing.onIds_eq_ok_iff.mp hrun
        exact (AddsAt.onSink (.addClauseBy hjoin path f.query
          (nodup_names_of_compileFragment hcompile))).bind fun _ _ _ _ ↦ .pure path []
  have hb := hadds ⟨b, ids⟩
  rw [jobStep]
  cases hrun : job.compose registry path ⟨b, ids⟩ with
  | ok opened c =>
      rw [hrun] at hb
      exact hb
  | error fault c =>
      rw [hrun] at hb
      exact hb

/-- The groups that a job opens are open afterwards. -/
theorem isOpen_of_jobStep {registry : Registry} {ids : IdSource} {job : Job} {path : Path}
    {b b' : Builder} {opened : List Path}
    (h : jobStep registry ids job path b = .ok opened b') (hpath : Item.IsOpen path b.items) :
    ∀ inner ∈ opened, Item.IsOpen inner b'.items := by
  rw [jobStep] at h
  cases hrun : job.compose registry path ⟨b, ids⟩ with
  | error fault c => simp [hrun] at h
  | ok found c =>
      simp only [hrun, EStateM.Result.ok.injEq] at h
      obtain ⟨rfl, rfl⟩ := h
      cases job with
      | group on join =>
          rw [Job.compose] at hrun
          cases hjoin : joinOf join with
          | error fault => simp [hjoin, throw_apply] at hrun
          | ok j =>
              simp only [hjoin] at hrun
              obtain ⟨inner, hopen, rfl⟩ := map_eq_ok_iff.mp hrun
              obtain ⟨sink, hsink, rfl⟩ := Composing.onSink_eq_ok_iff.mp hopen
              obtain ⟨rfl, rfl⟩ := Builder.openIn_eq_ok_iff.mp hsink
              intro other hother
              obtain rfl := List.mem_singleton.mp hother
              exact Item.isOpen_openAt hpath j
      | clause on fieldAlias condition join =>
          obtain ⟨f, _, -, hrest⟩ := bind_eq_ok_iff.mp hrun
          obtain ⟨_, _, -, hpure⟩ := bind_eq_ok_iff.mp hrest
          cases hpure
          exact fun _ hinner ↦ absurd hinner List.not_mem_nil
      | _ =>
          obtain ⟨_, -, rfl⟩ := map_eq_ok_iff.mp hrun
          exact fun _ hinner ↦ absurd hinner List.not_mem_nil

/-- A workspace in which every builder is balanced and every handle leads to a builder or to a group
that is open in it. -/
structure Workspace.IsBalanced (w : Workspace) : Prop where
  builders : ∀ b ∈ w.builders, b.IsBalanced
  handles : ∀ h ∈ w.handles, ∃ b, w.builders[h.builder]? = some b ∧ Item.IsOpen h.path b.items

namespace Workspace.IsBalanced

variable {w : Workspace}

/-- One builder grows at an open group, and the handles stay good together with new ones. -/
theorem set (h : w.IsBalanced) {i : Nat} {b b' : Builder} (hb : w.builders[i]? = some b)
    {path : Path} (hpath : Item.IsOpen path b.items) (hgrows : b.Grows path b')
    {opened : List Path} (hopened : ∀ inner ∈ opened, Item.IsOpen inner b'.items) :
    IsBalanced ⟨w.builders.set i b', w.handles ++ opened.map (⟨i, ·⟩)⟩ := by
  obtain ⟨hi, -⟩ := List.getElem?_eq_some_iff.mp hb
  have hnew : (w.builders.set i b')[i]? = some b' := List.getElem?_set_self hi
  constructor
  · intro c hc
    rcases List.mem_or_eq_of_mem_set hc with hc | rfl
    · exact h.builders c hc
    · exact (h.builders b (List.mem_of_getElem? hb)).grows hpath hgrows
  · intro handle hhandle
    rcases List.mem_append.mp hhandle with hold | hadded
    · obtain ⟨c, hc, hopen⟩ := h.handles handle hold
      by_cases hsame : i = handle.builder
      · subst hsame
        obtain rfl : b = c := Option.some.inj (hb.symm.trans hc)
        obtain ⟨items, -, -, rfl⟩ := hgrows
        exact ⟨_, hnew, hopen.extendAt path items⟩
      · exact ⟨c, (List.getElem?_set_ne hsame).trans hc, hopen⟩
    · obtain ⟨inner, hinner, rfl⟩ := List.mem_map.mp hadded
      exact ⟨b', hnew, hopened inner hinner⟩

theorem stepAt (h : w.IsBalanced) {step : Path → EStateM Fault Builder (List Path)}
    (hgrows : ∀ (path : Path) (b : Builder), b.Grows path (stateAfter (step path b)))
    (hopened : ∀ {path b opened b'}, step path b = .ok opened b' → Item.IsOpen path b.items →
      ∀ inner ∈ opened, Item.IsOpen inner b'.items) (on : Nat) :
    (w.stepAt on step).2.IsBalanced := by
  rw [Workspace.stepAt]
  cases hhandle : w.handles[on]? with
  | none => exact h
  | some handle =>
      obtain ⟨b, hb, hopen⟩ := h.handles handle (List.mem_of_getElem? hhandle)
      have hb' := hgrows handle.path b
      simp only [hb]
      cases hrun : step handle.path b with
      | ok opened b' =>
          rw [hrun] at hb'
          exact h.set hb hopen hb' (hopened hrun hopen)
      | error fault b' =>
          rw [hrun] at hb'
          have hnone : ∀ inner ∈ ([] : List Path), Item.IsOpen inner b'.items := nofun
          have hset := h.set hb hopen hb' hnone
          rwa [List.map_nil, List.append_nil] at hset

theorem create (h : w.IsBalanced) : (Action.create.perform w).2.IsBalanced := by
  constructor
  · intro b hb
    rcases List.mem_append.mp hb with hb | hb
    · exact h.builders b hb
    · exact List.mem_singleton.mp hb ▸ .empty
  · intro handle hhandle
    rcases List.mem_append.mp hhandle with hold | hnew
    · obtain ⟨b, hb, hopen⟩ := h.handles handle hold
      obtain ⟨hi, -⟩ := List.getElem?_eq_some_iff.mp hb
      exact ⟨b, (List.getElem?_append_left hi).trans hb, hopen⟩
    · obtain rfl := List.mem_singleton.mp hnew
      exact ⟨Builder.empty, List.getElem?_concat_length, trivial⟩

theorem nodup_names_of_itemsAt (h : w.IsBalanced) (handle : Handle) :
    ∀ f ∈ Item.contents (w.itemsAt handle), (f.parameters.map (·.1)).Nodup := by
  intro f hf
  rw [Workspace.itemsAt] at hf
  cases hb : w.builders[handle.builder]? with
  | none => simp [hb, Item.contents] at hf
  | some b =>
      simp only [hb] at hf
      exact (h.builders b (List.mem_of_getElem? hb)).nodup_names (Item.mem_contents_itemsAt hf)

/-- A step that opens no group, whatever comes of it. -/
theorem nil_of_map {α : Type} {step : EStateM Fault Builder α} {b b' : Builder}
    {opened : List Path} (h : ((fun _ ↦ []) <$> step) b = .ok opened b') : opened = [] := by
  obtain ⟨_, -, rfl⟩ := map_eq_ok_iff.mp h
  rfl

theorem stateAfter_map {α β : Type} (f : α → β) (step : EStateM Fault Builder α) (b : Builder) :
    stateAfter ((f <$> step) b) = stateAfter (step b) := by
  change stateAfter (EStateM.map f step b) = _
  rw [EStateM.map]
  cases step b <;> rfl

/-- Every action that may be done keeps a workspace balanced, whether it fails or not. -/
theorem perform (h : w.IsBalanced) {a : Action} (ha : a.IsAllowed w) :
    (a.perform w).2.IsBalanced := by
  cases a with
  | create => exact h.create
  | clause on join query pairs =>
      obtain ⟨j, hjoin⟩ := ha
      apply h.stepAt
      · intro path b
        rw [stateAfter_map]
        exact .addClauseBy hjoin path query (Parameters.nodup_names_ofPairs pairs) b
      · intro path b opened b' hrun _
        rw [nil_of_map hrun]
        nofun
  | replay source on =>
      apply h.stepAt
      · intro path b
        rw [stateAfter_map]
        refine .replay ?_ path b
        cases w.handles[source]? with
        | none => nofun
        | some handle => exact h.nodup_names_of_itemsAt handle
      · intro path b opened b' hrun _
        rw [nil_of_map hrun]
        nofun
  | job registry ids done =>
      apply h.stepAt
      · apply grows_jobStep
        rintro on fieldAlias condition join rfl
        exact ha
      · exact isOpen_of_jobStep

end Workspace.IsBalanced

theorem Workspace.Reachable.isBalanced {w : Workspace} (h : w.Reachable) : w.IsBalanced := by
  induction h with
  | start => exact ⟨nofun, nofun⟩
  | perform h a ha ih => exact ih.perform ha

/-- In every workspace that actions lead to, failed ones among them, the parameters of each builder
are the disjoint union of those of its clauses, at whatever depth these stand: each name has the
value that its clause has for it, no two clauses have a name in common, and no name is without a
clause.  What a handle leads to reports the parameters of the whole builder. -/
theorem Workspace.parameters_are_those_of_clauses {w : Workspace} (h : w.Reachable) :
    (∀ b ∈ w.builders,
      (∀ f ∈ Item.contents b.items, ∀ p ∈ f.parameters, b.bound.get? p.1 = some p.2) ∧
      (Item.contents b.items).Pairwise Apart ∧
      (∀ p ∈ b.bound, ∃ f ∈ Item.contents b.items, p ∈ f.parameters) ∧
      b.bound.Perm (parametersOf (Item.contents b.items)) ∧ (b.bound.map (·.1)).Nodup) ∧
    ∀ handle ∈ w.handles, ∃ b, w.builders[handle.builder]? = some b ∧
      Item.IsOpen handle.path b.items ∧ (b.build handle.path).parameters = b.bound := by
  have hw := h.isBalanced
  constructor
  · intro b hb
    have hbalanced := hw.builders b hb
    refine ⟨fun f hf p hp ↦ hbalanced.get?_bound hf hp, hbalanced.pairwise_apart, ?_,
      hbalanced.bound, hbalanced.nodup⟩
    intro p hp
    exact List.mem_flatMap.mp (hbalanced.bound.mem_iff.mp hp)
  · intro handle hhandle
    obtain ⟨b, hb, hopen⟩ := hw.handles handle hhandle
    exact ⟨b, hb, hopen, rfl⟩

/-- The steps to two builders, one with a tree in a group and one with a clause that has the name of
the second clause of the tree. -/
def Action.sampleSteps : List Action :=
  [.create, .create,
   .clause 1 (.text "AND") "a = :p2_equalTo_e_age" [("p2_equalTo_e_age", .int 1)],
   .job Registry.full .standard (.group 0 (.text "OR")),
   .job Registry.full .standard (.tree 2 (.text "e") (.text "AND")
      (.dict [(.text "name", .text "Ann"), (.text "age", .int 30)]))]

def Workspace.sample : Workspace :=
  Action.sampleSteps.foldl (fun w a ↦ (a.perform w).2) ⟨[], []⟩

theorem Workspace.reachable_sample : sample.Reachable :=
  .perform (.perform (.perform (.perform (.perform .start .create trivial) .create trivial)
    (.clause 1 (.text "AND") "a = :p2_equalTo_e_age" [("p2_equalTo_e_age", .int 1)]) ⟨.and, rfl⟩)
    (.job Registry.full .standard (.group 0 (.text "OR"))) trivial)
    (.job Registry.full .standard (.tree 2 (.text "e") (.text "AND")
      (.dict [(.text "name", .text "Ann"), (.text "age", .int 30)]))) trivial

/-- A tree in a group of one builder is replayed into another, which has the name of its second
clause already. -/
theorem Workspace.parameters_are_those_of_clauses_replayed :
    ∃ (w w' : Workspace) (b : Builder) (f : Fragment), w.Reachable ∧
      (Action.replay 0 1).perform w = (some (.condition (.nameBound "p2_equalTo_e_age")), w') ∧
      w'.builders[1]? = some b ∧ f ∈ Item.contents b.items ∧
      f.parameters = [("p1_equalTo_e_name", .text "Ann")] ∧
      b.bound.get? "p1_equalTo_e_name" = some (.text "Ann") ∧
      b.bound.Perm (parametersOf (Item.contents b.items)) := by
  have hhandles : sample.handles = [⟨0, []⟩, ⟨1, []⟩, ⟨0, [0]⟩] := rfl
  have hallowed : (Action.replay 0 1).IsAllowed sample := by
    intro h h' hh hh' hwithin
    rw [hhandles] at hh hh'
    cases hh
    cases hh'
    exact absurd hwithin.1 (by decide)
  have hfault : ((Action.replay 0 1).perform sample).1 =
      some (.condition (.nameBound "p2_equalTo_e_age")) := rfl
  have hclauses : ((Action.replay 0 1).perform sample).2.builders[1]?.map
      (fun b ↦ (Item.contents b.items).map (·.parameters)) =
        some [[("p2_equalTo_e_age", .int 1)], [("p1_equalTo_e_name", .text "Ann")]] := rfl
  have hreachable := reachable_sample.perform (.replay 0 1) hallowed
  generalize hrun : (Action.replay 0 1).perform sample = result at hfault hclauses hreachable
  obtain ⟨fault, w'⟩ := result
  obtain rfl : fault = some (.condition (.nameBound "p2_equalTo_e_age")) := hfault
  obtain ⟨b, hb, hcontents⟩ := Option.map_eq_some_iff.mp hclauses
  obtain ⟨f, hf, hparameters⟩ : ∃ f ∈ Item.contents b.items,
      f.parameters = [("p1_equalTo_e_name", .text "Ann")] := by
    rw [← List.mem_map, hcontents]
    exact List.mem_cons_of_mem _ List.mem_cons_self
  obtain ⟨hvalues, -, -, hperm, -⟩ :=
    (parameters_are_those_of_clauses hreachable).1 b (List.mem_of_getElem? hb)
  refine ⟨sample, w', b, f, reachable_sample, hrun, hb, hf, hparameters, ?_, hperm⟩
  exact hvalues f hf ("p1_equalTo_e_name", .text "Ann") (hparameters ▸ List.mem_cons_self)

end Clause

end Criteria
