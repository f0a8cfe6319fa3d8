import Criteria.Proofs.Sequences

/-!
# Jobs of one compiler

One compiler draws its identifiers from one numbered sequence, and what it compiles goes into one
builder and its groups, by trees, by flat filters and by single conditions.  Some of these jobs fail
and leave behind what they have done so far, and the next job goes on from there.  None of them
fails for a name that is bound.
-/

namespace Criteria

open Clause (Apart Builder Path Session joinOf openIn parametersOf)
open FilterTree (entryVisits)

/-- What is done with the one compiler and the one builder: a group is opened, or a tree, a flat
filter, a condition on a field or a condition under an alias of its own is compiled and added, to
the builder or to a group in it. -/
inductive Job where
  | group (on : Nat) (join : Value)
  | tree (on : Nat) (base join filter : Value)
  | flat (on : Nat) (base filters : Value)
  | single (on : Nat) (base field condition join : Value)
  | clause (on : Nat) (fieldAlias condition join : Value)

namespace Job

def on : Job → Nat
  | group on _ => on
  | tree on _ _ _ => on
  | flat on _ _ => on
  | single on _ _ _ _ => on
  | clause on _ _ _ => on

/-- A job in the group at a path, with the path of the group that it opens. -/
def compose (registry : Registry) (path : Path) : Job → Composing Builder (List Path)
  | group _ join =>
    match joinOf join with
    | .ok j => (fun inner ↦ [inner]) <$> Composing.onSink (openIn path j)
    | .error fault => throw fault
  | tree _ base join filter => (fun _ ↦ []) <$> FilterTree.apply registry base path join filter
  | flat _ base filters => (fun _ ↦ []) <$> applyFilters registry path base filters
  | single _ base field condition join =>
    (fun _ ↦ []) <$> applyCondition registry path base field condition join
  | clause _ fieldAlias condition join => do
    let f ← Composing.onIds (compileFragment registry fieldAlias condition)
    Composing.onSink (Builder.addClauseBy path join f.query f.parameters)
    return []

/-- A session after a job, and the fault of the job if it has failed.  What a job has done before it
failed stays. -/
def perform (registry : Registry) (job : Job) (s : Session (Composition Builder)) :
    Option Fault × Session (Composition Builder) :=
  match job.compose registry (s.opened.getD job.on []) s.sink with
  | .ok opened c => (none, ⟨c, s.opened ++ opened⟩)
  | .error fault c => (some fault, { s with sink := c })

/-- A session after jobs, and the faults of those that have failed. -/
def performAll (registry : Registry) : List Job → Session (Composition Builder) →
    List Fault × Session (Composition Builder)
  | [], s => ([], s)
  | job :: rest, s =>
    match job.perform registry s with
    | (fault?, s) =>
      match performAll registry rest s with
      | (faults, s) => (fault?.toList ++ faults, s)

def treeCalls (registry : Registry) (base : Value) : Value → List (Compiling Fragment)
  | .dict entries => (entryVisits entries).map fun v ↦ v.finding.fragment registry base
  | _ => []

def flatCalls (registry : Registry) (base : Value) : Value → List (Compiling Fragment)
  | .dict entries => entries.map fun e ↦ compileFragment registry (.text (baseAlias e.1 base)) e.2
  | _ => []

/-- The calls of a job, if none of them fails. -/
def calls (registry : Registry) : Job → List (Compiling Fragment)
  | group _ _ => []
  | tree _ base join filter =>
    match joinOf join with
    | .ok _ => treeCalls registry base filter
    | .error _ => []
  | flat _ base filters => flatCalls registry base filters
  | single _ base field condition _ =>
    [compileFragment registry (.text (baseAlias field base)) condition]
  | clause _ fieldAlias condition _ => [compileFragment registry fieldAlias condition]

/-- What the calls of jobs produce, and the identifiers that are left. -/
def gatherAll (registry : Registry) : List Job → IdSource → List Fragment × IdSource
  | [], ids => ([], ids)
  | job :: rest, ids =>
    match gather (job.calls registry) ids with
    | (fragments, ids) =>
      match gatherAll registry rest ids with
      | (others, ids) => (fragments ++ others, ids)

theorem drawsOne_of_mem_calls (registry : Registry) (job : Job) :
    ∀ call ∈ job.calls registry, DrawsOne call := by
  intro call hcall
  cases job with
  | group on join => cases hcall
  | tree on base join filter =>
      rw [calls] at hcall
      cases hjoin : joinOf join with
      | error fault => simp [hjoin] at hcall
      | ok j =>
          simp only [hjoin] at hcall
          cases filter with
          | dict entries =>
              obtain ⟨v, hv, rfl⟩ := List.mem_map.mp hcall
              obtain ⟨_, _, -, hat⟩ := FilterTree.exists_reaches_of_mem_entryVisits hv
              exact FilterTree.drawsOne_fragment hat
          | _ => cases hcall
  | flat on base filters =>
      cases filters with
      | dict entries =>
          obtain ⟨e, -, rfl⟩ := List.mem_map.mp hcall
          exact drawsOne_compileFragment registry _ e.2
      | _ => cases hcall
  | single on base field condition join =>
      rw [calls] at hcall
      obtain rfl := List.mem_singleton.mp hcall
      exact drawsOne_compileFragment registry _ condition
  | clause on fieldAlias condition join =>
      rw [calls] at hcall
      obtain rfl := List.mem_singleton.mp hcall
      exact drawsOne_compileFragment registry fieldAlias condition

end Job

/-! ## What a job does -/

theorem makesCalls_applyEntries (registry : Registry) (base : Value) (j : Join)
    (entries : List (Value × Value)) :
    MakesCalls (Job.treeCalls registry base (.dict entries))
      (FilterTree.applyEntries registry base [] j entries : Composing Builder Unit) := by
  refine (FilterTree.bindsAs_applyEntries registry base [] j entries).makesCalls ?_ ?_
  · intro v hv
    obtain ⟨_, _, -, hat⟩ := FilterTree.exists_reaches_of_mem_entryVisits hv
    exact FilterTree.drawsOne_fragment hat
  · exact fun v fault h ↦ Fault.not_isCollision_atPosition h _ v.position

/-- A tree is composed aside, and then its names go into the builder all together or not at all. -/
theorem makesCalls_apply_entries {join : Value} {j : Join} (hjoin : joinOf join = .ok j)
    (registry : Registry) (path : Path) (base : Value) (entries : List (Value × Value)) :
    MakesCalls (Job.treeCalls registry base (.dict entries))
      (FilterTree.apply registry base path join (.dict entries) : Composing Builder Unit) := by
  rintro ⟨sink, ids⟩ lead next hids hbound
  have hempty : NamedBefore lead next Builder.empty.bound := nofun
  obtain ⟨hlast, hfault, added, hadded, hnames⟩ :=
    makesCalls_applyEntries registry base j entries ⟨Builder.empty, ids⟩ lead next hids hempty
  cases hrun : FilterTree.applyEntries registry base [] j entries ⟨Builder.empty, ids⟩ with
  | error fault s =>
      -- The names composed aside are dropped, but the identifiers that they took are used up.
      have happly : FilterTree.apply registry base path join (.dict entries) ⟨sink, ids⟩ =
          .error fault ⟨sink, s.ids⟩ := by
        simp only [FilterTree.apply, hjoin, FilterTree.stage, FilterTree.applyTree, hrun]
      rw [hrun] at hlast hfault
      rw [happly]
      exact ⟨hlast, hfault, [], List.nil_sublist _, (List.append_nil _).symm⟩
  | ok _ s =>
      have hstage : FilterTree.stage registry base j (.dict entries) ids = (.ok s.sink, s.ids) := by
        simp only [FilterTree.stage, FilterTree.applyTree, hrun]
      obtain ⟨_, items, ⟨⟩, hitems, hbind, hsink⟩ := FilterTree.stage_eq_ok_iff.mp hstage
      have hreplay : Clause.replay path items sink = .ok () (sink.extend path items) :=
        Builder.replay_eq_ok_iff.mpr ⟨(hitems.bindable hids hbound).1, rfl⟩
      have happly : FilterTree.apply registry base path join (.dict entries) ⟨sink, ids⟩ =
          .ok () ⟨sink.extend path items, s.ids⟩ :=
        FilterTree.apply_eq_ok_iff.mpr ⟨j, entries, items, hjoin, rfl, hitems, hbind, hreplay⟩
      rw [hrun] at hlast hnames
      have hparameters : parametersOf (Clause.Item.contents items) = parametersOf added := by
        simpa [stateAfter, hsink, Builder.extend, Builder.empty] using hnames
      rw [happly]
      exact ⟨hlast, not_isCollision_of_ok _ _, added, hadded,
        congrArg (sink.bound ++ ·) hparameters⟩

namespace Job

theorem makesCalls_compose (registry : Registry) (job : Job) (path : Path) :
    MakesCalls (job.calls registry) (job.compose registry path) := by
  cases job with
  | group on join =>
      rw [compose, calls]
      cases hjoin : joinOf join with
      | error fault =>
          exact makesCalls_of_eq_error fun _ ↦ ⟨fault, rfl, not_isCollision_of_joinOf hjoin⟩
      | ok j => exact (makesCalls_openIn path j).map _
  | tree on base join filter =>
      refine MakesCalls.map ?_ _
      rw [calls]
      cases hjoin : joinOf join with
      | error fault =>
          refine makesCalls_of_eq_error fun c ↦ ⟨fault, ?_, not_isCollision_of_joinOf hjoin⟩
          simp only [FilterTree.apply, hjoin]
      | ok j =>
          cases filter with
          | dict entries => exact makesCalls_apply_entries hjoin registry path base entries
          | _ =>
              refine makesCalls_of_eq_error fun c ↦ ?_
              simp only [FilterTree.apply, hjoin]
              exact ⟨_, rfl, id⟩
  | flat on base filters =>
      refine MakesCalls.map ?_ _
      cases filters with
      | dict entries =>
          refine (bindsAs_applyFlatEntries registry path base entries).makesCalls ?_ fun _ _ h ↦ h
          exact fun e _ ↦ drawsOne_compileFragment registry _ e.2
      | _ => exact makesCalls_of_eq_error fun c ↦ ⟨_, rfl, not_isCollision_noEntries _⟩
  | single on base field condition join =>
      exact (makesCalls_applyCondition registry path base field condition join).map _
  | clause on fieldAlias condition join =>
      have hcompose : compose registry path (clause on fieldAlias condition join) = (fun _ ↦ []) <$>
          (Composing.onIds (compileFragment registry fieldAlias condition) >>= fun f ↦
            Composing.onSink (Builder.addClauseBy path join f.query f.parameters)) := by
        simp only [compose, map_eq_pure_bind, bind_assoc]
      exact hcompose ▸ (makesCalls_addClauseBy registry path fieldAlias condition join).map _

/-- A job goes on with the sequence as far as its calls do, and fails for no collision. -/
theorem perform_sequence (registry : Registry) (job : Job) (s : Session (Composition Builder))
    {lead : String} {next : Int} (hids : s.sink.ids = .sequence lead next)
    (hbound : NamedBefore lead next s.sink.sink.bound) :
    (job.perform registry s).2.sink.ids = (gather (job.calls registry) s.sink.ids).2 ∧
    (∀ fault ∈ (job.perform registry s).1, ¬fault.IsCollision) ∧
    ∃ added, added.Sublist (gather (job.calls registry) s.sink.ids).1 ∧
      (job.perform registry s).2.sink.sink.bound = s.sink.sink.bound ++ parametersOf added := by
  have hcalls := makesCalls_compose registry job (s.opened.getD job.on []) s.sink lead next hids
    hbound
  rw [perform]
  cases hrun : job.compose registry (s.opened.getD job.on []) s.sink with
  | ok opened c =>
      rw [hrun] at hcalls
      exact hcalls
  | error fault c =>
      rw [hrun] at hcalls
      exact hcalls

theorem performAll_sequence (registry : Registry) (jobs : List Job)
    (s : Session (Composition Builder)) {lead : String} {next : Int}
    (hids : s.sink.ids = .sequence lead next)
    (hbound : NamedBefore lead next s.sink.sink.bound) :
    (performAll registry jobs s).2.sink.ids = (gatherAll registry jobs s.sink.ids).2 ∧
    (∀ fault ∈ (performAll registry jobs s).1, ¬fault.IsCollision) ∧
    (∃ added, added.Sublist (gatherAll registry jobs s.sink.ids).1 ∧
      (performAll registry jobs s).2.sink.sink.bound =
        s.sink.sink.bound ++ parametersOf added) ∧
    ∃ next', IsNumbered lead next next' (gatherAll registry jobs s.sink.ids).1 := by
  induction jobs generalizing s next with
  | nil =>
      exact ⟨rfl, nofun, ⟨[], List.Sublist.refl _, (List.append_nil _).symm⟩, next, .nil lead next⟩
  | cons job rest ih =>
      obtain ⟨hlast, hfault, added, hadded, hnames⟩ := job.perform_sequence registry s hids hbound
      obtain ⟨middle, hmiddle, hfirst⟩ :=
        isNumbered_gather (drawsOne_of_mem_calls registry job) lead next
      rw [← hids] at hmiddle hfirst
      obtain ⟨hlast', hfault', ⟨added', hadded', hnames'⟩, next', hothers⟩ :=
        ih (job.perform registry s).2 (hlast.trans hmiddle)
          (hnames ▸ hbound.append hfirst hadded)
      rw [hlast] at hlast' hadded' hothers
      refine ⟨hlast', fun fault hmem ↦ ?_, ⟨added ++ added', hadded.append hadded', ?_⟩, next',
        hfirst.append hothers⟩
      · rcases List.mem_append.mp hmem with hmem | hmem
        · exact hfault fault (Option.mem_toList.mp hmem)
        · exact hfault' fault hmem
      · rw [parametersOf, List.flatMap_append, ← List.append_assoc]
        exact hnames'.trans (congrArg (· ++ parametersOf added') hnames)

/-- With one numbered sequence, whatever it begins with and wherever it starts, no job fails for a
name that is bound, neither directly nor as the cause of a fault in a tree.  No two calls have a
name in common, and the names of the builder are those of calls that were made. -/
theorem sequence_never_collides (registry : Registry) (lead : String) (start : Int)
    (jobs : List Job) :
    (∀ fault ∈ (performAll registry jobs (.start ⟨Builder.empty, .sequence lead start⟩)).1,
      ¬fault.IsCollision) ∧
    (gatherAll registry jobs (.sequence lead start)).1.Pairwise Apart ∧
    (performAll registry jobs (.start ⟨Builder.empty, .sequence lead start⟩)).2.sink.ids =
      (gatherAll registry jobs (.sequence lead start)).2 ∧
    ∃ added, added.Sublist (gatherAll registry jobs (.sequence lead start)).1 ∧
      (performAll registry jobs (.start ⟨Builder.empty, .sequence lead start⟩)).2.sink.sink.bound =
        parametersOf added := by
  obtain ⟨hlast, hfault, hadded, next', hnumbered⟩ := performAll_sequence registry jobs
    (.start ⟨Builder.empty, .sequence lead start⟩) rfl nofun
  exact ⟨hfault, hnumbered.apart, hlast, hadded⟩

end Job

end Criteria
