import Criteria.Proofs.Bindings
import Criteria.Proofs.Locations

/-!
# Calls with a numbered sequence

With a numbered sequence each call has a number of its own in the names of its parameters, whatever
calls before it have failed.  A step on a builder that makes such calls never meets a name that is
bound, as long as the names before came from the same sequence.
-/

namespace Criteria

open Clause (Apart Builder Path Session joinOf openIn parametersOf)
open FilterTree (BindsAs bindFragment entryVisits names)

/-! ## Collisions -/

/-- A fault for a name that is bound already, however deep in its causes. -/
def ConditionFault.IsCollision : ConditionFault → Prop
  | nameBound _ => True
  | located _ _ cause _ => cause.IsCollision
  | _ => False

def Fault.IsCollision : Fault → Prop
  | condition cause => cause.IsCollision
  | _ => False

theorem Fault.IsElementary.not_isCollision {fault : Fault} (h : fault.IsElementary) :
    ¬fault.IsCollision := by
  cases fault with
  | condition cause =>
      cases cause with
      | nameBound name => exact h.elim
      | located field path cause chained => exact h.elim
      | _ => exact id
  | _ => exact id

theorem Fault.not_isCollision_raised {cause : ConditionFault} (h : ¬cause.IsCollision) :
    ¬(raised cause).IsCollision := by
  rw [raised]
  split
  · exact h
  · exact id

theorem Fault.not_isCollision_atField {fault : Fault} (h : ¬fault.IsCollision) (field : Value) :
    ¬(fault.atField field).IsCollision := by
  cases fault with
  | condition cause =>
      cases cause with
      | located inner path cause chained => exact not_isCollision_raised h
      | _ => exact not_isCollision_raised h
  | _ => exact id

theorem Fault.not_isCollision_atIndex {fault : Fault} (h : ¬fault.IsCollision) (index : Nat) :
    ¬(fault.atIndex index).IsCollision := by
  cases fault with
  | condition cause =>
      cases cause with
      | located inner path cause chained => exact not_isCollision_raised h
      | _ => exact h
  | _ => exact id

theorem Fault.not_isCollision_atPosition {fault : Fault} (h : ¬fault.IsCollision) (field : Value)
    (position : FilterTree.Position) : ¬(fault.atPosition field position).IsCollision := by
  induction position with
  | nil => exact not_isCollision_atField h field
  | cons step rest ih => exact not_isCollision_atField (not_isCollision_atIndex ih step.2) _

/-! ## Calls one after the other -/

/-- What calls produce up to the first one that fails, and the identifiers that are left. -/
def gather : List (Compiling Fragment) → IdSource → List Fragment × IdSource
  | [], ids => ([], ids)
  | call :: rest, ids =>
    match call ids with
    | .ok f ids => (f :: (gather rest ids).1, (gather rest ids).2)
    | .error _ ids => ([], ids)

theorem gather_append {α : Type} {list : List α} {call : α → Compiling Fragment}
    {ids ids' : IdSource} {fragments : List Fragment} (h : list.mapM call ids = .ok fragments ids')
    (others : List (Compiling Fragment)) : gather (list.map call ++ others) ids =
      (fragments ++ (gather others ids').1, (gather others ids').2) := by
  induction list generalizing ids fragments with
  | nil =>
      cases h
      rfl
  | cons a rest ih =>
      rw [List.mapM_cons] at h
      obtain ⟨f, middle, hcall, h⟩ := bind_eq_ok_iff.mp h
      obtain ⟨more, last, hmore, h⟩ := bind_eq_ok_iff.mp h
      cases h
      rw [List.map_cons, List.cons_append, gather, hcall]
      simp only [ih hmore, List.cons_append]

/-- Fragments whose names begin with different numbers of a sequence, in an interval. -/
structure IsNumbered (lead : String) (low high : Int) (fragments : List Fragment) : Prop where
  le : low ≤ high
  names : ∀ f ∈ fragments, ∀ p ∈ f.parameters,
    ∃ k, low ≤ k ∧ k < high ∧ NamedBy (lead ++ toString k) p.1
  apart : fragments.Pairwise Apart

theorem IsNumbered.nil (lead : String) (next : Int) : IsNumbered lead next next [] :=
  ⟨Int.le_refl next, nofun, .nil⟩

theorem IsNumbered.append {lead : String} {low middle high : Int} {fragments others : List Fragment}
    (h : IsNumbered lead low middle fragments) (hothers : IsNumbered lead middle high others) :
    IsNumbered lead low high (fragments ++ others) where
  le := Int.le_trans h.le hothers.le
  names := by
    have hle := h.le
    have hle' := hothers.le
    intro f hf p hp
    rcases List.mem_append.mp hf with hf | hf
    · obtain ⟨k, hlow, hhigh, hname⟩ := h.names f hf p hp
      exact ⟨k, hlow, by omega, hname⟩
    · obtain ⟨k, hlow, hhigh, hname⟩ := hothers.names f hf p hp
      exact ⟨k, by omega, hhigh, hname⟩
  apart := by
    refine List.pairwise_append.mpr ⟨h.apart, hothers.apart, fun f hf g hg p hp ↦ ?_⟩
    apply List.any_eq_false.mpr
    intro q hq hsame
    obtain ⟨k, -, hk, hname⟩ := h.names f hf q hq
    obtain ⟨l, hl, -, hother⟩ := hothers.names g hg p hp
    have heq : q.1 = p.1 := by simpa using hsame
    have hnumber : k = l := (heq ▸ hname).number_eq hother
    omega

theorem DrawsOne.isNumbered {call : Compiling Fragment} (hcall : DrawsOne call) {lead : String}
    {next : Int} {f : Fragment} {ids' : IdSource} (h : call (.sequence lead next) = .ok f ids') :
    ∃ next', ids' = .sequence lead next' ∧ IsNumbered lead next next' [f] := by
  rcases hcall.ok h with ⟨hids, hnil⟩ | ⟨hids, hnames⟩
  · refine ⟨next, hids, Int.le_refl next, fun g hg p hp ↦ ?_, List.pairwise_singleton _ _⟩
    obtain rfl := List.mem_singleton.mp hg
    rw [hnil] at hp
    cases hp
  · refine ⟨next + 1, hids, by omega, fun g hg p hp ↦ ?_, List.pairwise_singleton _ _⟩
    obtain rfl := List.mem_singleton.mp hg
    exact ⟨next, Int.le_refl next, by omega, hnames p hp⟩

/-- What calls produce with a sequence is numbered, and the sequence is past it. -/
theorem isNumbered_gather {calls : List (Compiling Fragment)}
    (hcalls : ∀ call ∈ calls, DrawsOne call) (lead : String) (next : Int) : ∃ next',
      (gather calls (.sequence lead next)).2 = .sequence lead next' ∧
      IsNumbered lead next next' (gather calls (.sequence lead next)).1 := by
  induction calls generalizing next with
  | nil => exact ⟨next, rfl, .nil lead next⟩
  | cons call rest ih =>
      have hfirst := hcalls call List.mem_cons_self
      have hrest : ∀ call ∈ rest, DrawsOne call := fun call hcall ↦
        hcalls call (List.mem_cons_of_mem _ hcall)
      rw [gather]
      cases hrun : call (.sequence lead next) with
      | ok f ids' =>
          obtain ⟨middle, rfl, hf⟩ := hfirst.isNumbered hrun
          obtain ⟨next', hids, hmore⟩ := ih hrest middle
          exact ⟨next', hids, hf.append hmore⟩
      | error fault ids' =>
          -- A call may fail with its number drawn; the number is then skipped.
          rcases (hfirst.error hrun).2 with rfl | rfl
          · exact ⟨next, rfl, .nil lead next⟩
          · exact ⟨next + 1, rfl, by omega, nofun, .nil⟩

theorem NamedBefore.isUnused {lead : String} {next : Int} {bound : Parameters}
    (h : NamedBefore lead next bound) (count : Nat) :
    IsUnused bound count (.sequence lead next) where
  separate := IdSource.pairwise_areSeparate_sequence lead next count
  bound := by
    intro p hp
    obtain ⟨k, hk, hname⟩ := h p hp
    refine ⟨_, hname, fun other hother name hfirst hsecond ↦ ?_⟩
    obtain ⟨l, hl, rfl⟩ := IdSource.exists_number_of_mem_take hother
    have hnumber : k = l := hfirst.number_eq hsecond
    omega

theorem NamedBefore.append {lead : String} {next next' : Int} {bound : Parameters}
    (h : NamedBefore lead next bound) {fragments : List Fragment}
    (hfragments : IsNumbered lead next next' fragments) {added : List Fragment}
    (hadded : added.Sublist fragments) : NamedBefore lead next' (bound ++ parametersOf added) := by
  have hle := hfragments.le
  intro p hp
  rcases List.mem_append.mp hp with hp | hp
  · obtain ⟨k, hk, hname⟩ := h p hp
    exact ⟨k, by omega, hname⟩
  · obtain ⟨f, hf, hp⟩ := List.mem_flatMap.mp hp
    obtain ⟨k, -, hk, hname⟩ := hfragments.names f (hadded.subset hf) p hp
    exact ⟨k, hk, hname⟩

/-! ## Steps on a builder -/

/-- The state after a step, whether it failed or not. -/
def stateAfter {ε σ α : Type} : EStateM.Result ε σ α → σ
  | .ok _ s => s
  | .error _ s => s

/-- The fault of a step that failed. -/
def faultOf? {ε σ α : Type} : EStateM.Result ε σ α → Option ε
  | .ok _ _ => none
  | .error fault _ => some fault

theorem not_isCollision_of_ok {σ α : Type} (a : α) (s : σ) :
    ∀ fault ∈ faultOf? (.ok a s : EStateM.Result Fault σ α), ¬fault.IsCollision :=
  fun _ h ↦ absurd h (Option.not_mem_none _)

theorem not_isCollision_of_error {σ α : Type} {fault : Fault} (h : ¬fault.IsCollision) (s : σ) :
    ∀ other ∈ faultOf? (.error fault s : EStateM.Result Fault σ α), ¬other.IsCollision := by
  rintro _ ⟨⟩
  exact h

/-- A step that makes calls and binds names that they produce, and that fails for no collision when
the names before came from the same sequence. -/
def MakesCalls {α : Type} (calls : List (Compiling Fragment)) (step : Composing Builder α) : Prop :=
  ∀ (c : Composition Builder) (lead : String) (next : Int), c.ids = .sequence lead next →
    NamedBefore lead next c.sink.bound →
    (stateAfter (step c)).ids = (gather calls c.ids).2 ∧
    (∀ fault ∈ faultOf? (step c), ¬fault.IsCollision) ∧
    ∃ added, added.Sublist (gather calls c.ids).1 ∧
      (stateAfter (step c)).sink.bound = c.sink.bound ++ parametersOf added

/-- What is known of a step that does to the names what calls do one after the other. -/
theorem FilterTree.BindsAs.makesCalls {α : Type} {step : Composing Builder Unit} {list : List α}
    {report : α → Fault → Fault} {call : α → Compiling Fragment}
    (h : BindsAs step (forM list fun a ↦ bindFragment (report a) (call a)))
    (hcall : ∀ a ∈ list, DrawsOne (call a))
    (hreport : ∀ a fault, ¬fault.IsCollision → ¬(report a fault).IsCollision) :
    MakesCalls (list.map call) step := by
  intro c lead next hids hbound
  have hnames := h c
  have hunused : IsUnused c.sink.bound list.length c.ids := hids ▸ hbound.isUnused _
  rcases FilterTree.forM_bindFragment report hcall hunused with ⟨fragments, ids', hmap, hrun⟩ |
    ⟨done, a, rest, fragments, middle, cause, ids', rfl, hmap, -, hfail, hrun⟩
  · have hgather := gather_append hmap []
    simp only [List.append_nil, gather] at hgather
    rw [hrun] at hnames
    cases hstep : step c with
    | error fault c' => simp [hstep, names] at hnames
    | ok _ c' =>
        obtain ⟨hsink, hlast⟩ : c'.sink.bound = _ ∧ c'.ids = ids' := by
          simpa [hstep, names] using hnames
        rw [hgather]
        exact ⟨hlast, not_isCollision_of_ok _ _, fragments, List.Sublist.refl _, hsink⟩
  · have hgather : gather ((done ++ a :: rest).map call) c.ids = (fragments, ids') := by
      rw [List.map_append, List.map_cons, gather_append hmap, gather, hfail]
      simp
    rw [hrun] at hnames
    cases hstep : step c with
    | ok _ c' => simp [hstep, names] at hnames
    | error fault c' =>
        obtain ⟨rfl, hsink, hlast⟩ : fault = _ ∧ c'.sink.bound = _ ∧ c'.ids = ids' := by
          simpa [hstep, names] using hnames
        have helementary := ((hcall a (by simp)).error hfail).1
        have hreported := hreport a cause helementary.not_isCollision
        rw [hgather]
        exact ⟨hlast, not_isCollision_of_error hreported _, fragments, List.Sublist.refl _, hsink⟩

theorem MakesCalls.map {α β : Type} {calls : List (Compiling Fragment)} {step : Composing Builder α}
    (h : MakesCalls calls step) (f : α → β) : MakesCalls calls (f <$> step) := by
  intro c lead next hids hbound
  have hc := h c lead next hids hbound
  have hmap : stateAfter ((f <$> step) c) = stateAfter (step c) ∧
      faultOf? ((f <$> step) c) = faultOf? (step c) := by
    change stateAfter (EStateM.map f step c) = _ ∧ faultOf? (EStateM.map f step c) = _
    rw [EStateM.map]
    cases step c <;> exact ⟨rfl, rfl⟩
  rwa [hmap.1, hmap.2]

/-- A step that fails before it has done anything. -/
theorem makesCalls_of_eq_error {α : Type} {step : Composing Builder α}
    (h : ∀ c, ∃ fault, step c = .error fault c ∧ ¬fault.IsCollision) : MakesCalls [] step := by
  intro c lead next hids hbound
  obtain ⟨fault, hstep, hfault⟩ := h c
  rw [hstep]
  exact ⟨rfl, not_isCollision_of_error hfault _, [], List.Sublist.refl _,
    (List.append_nil _).symm⟩

theorem makesCalls_openIn (path : Path) (j : Join) :
    MakesCalls [] (Composing.onSink (openIn path j) : Composing Builder Path) :=
  fun _ _ _ _ _ ↦ ⟨rfl, not_isCollision_of_ok _ _, [], List.Sublist.refl _,
    (List.append_nil _).symm⟩

theorem not_isCollision_of_joinOf {join : Value} {fault : Fault} (h : joinOf join = .error fault) :
    ¬fault.IsCollision := by
  rw [Clause.joinOf.eq_def] at h
  split at h
  · split at h
    · cases h
    · obtain rfl := Except.error.inj h
      exact id
  · obtain rfl := Except.error.inj h
    exact id

theorem not_isCollision_noEntries (v : Value) : ¬(Fault.noEntries v).IsCollision := by
  rw [Fault.noEntries]
  split <;> exact id

/-- One call, after which the clause is added or its join is refused. -/
theorem makesCalls_clause {call : Compiling Fragment} (hcall : DrawsOne call)
    {add : Fragment → Composing Builder Unit}
    (hadd : ∀ (f : Fragment) (c : Composition Builder),
      (∀ p ∈ f.parameters, c.sink.bound.binds p.1 = false) →
      (stateAfter (add f c)).ids = c.ids ∧ (∀ fault ∈ faultOf? (add f c), ¬fault.IsCollision) ∧
      ((stateAfter (add f c)).sink.bound = c.sink.bound ∨
        (stateAfter (add f c)).sink.bound = c.sink.bound ++ f.parameters)) :
    MakesCalls [call] (Composing.onIds call >>= add) := by
  intro c lead next hids hbound
  have hunused : IsUnused c.sink.bound 1 c.ids := hids ▸ hbound.isUnused 1
  change (stateAfter (EStateM.bind (Composing.onIds call) add c)).ids = _ ∧
    (∀ fault ∈ faultOf? (EStateM.bind (Composing.onIds call) add c), _) ∧
    ∃ added, _ ∧ (stateAfter (EStateM.bind (Composing.onIds call) add c)).sink.bound = _
  rw [EStateM.bind, Composing.onIds, gather]
  cases hrun : call c.ids with
  | error fault ids' =>
      have helementary := (hcall.error hrun).1
      exact ⟨rfl, not_isCollision_of_error helementary.not_isCollision _, [],
        List.Sublist.refl _, (List.append_nil _).symm⟩
  | ok f ids' =>
      obtain ⟨hlast, hfault, hsink⟩ := hadd f ⟨c.sink, ids'⟩ (hunused.binds_eq_false hcall hrun)
      refine ⟨hlast, hfault, ?_⟩
      rcases hsink with hsink | hsink
      · exact ⟨[], List.nil_sublist _, by simpa [parametersOf] using hsink⟩
      · exact ⟨[f], List.Sublist.refl _, by simpa [parametersOf] using hsink⟩

theorem makesCalls_applyCondition (registry : Registry) (path : Path)
    (base field condition join : Value) :
    MakesCalls [compileFragment registry (.text (baseAlias field base)) condition]
      (applyCondition registry path base field condition join) := by
  apply makesCalls_clause (drawsOne_compileFragment registry _ condition)
  intro f c hbound
  cases hjoin : joinOf join with
  | error fault =>
      exact ⟨rfl, not_isCollision_of_error (not_isCollision_of_joinOf hjoin) _, Or.inl rfl⟩
  | ok j =>
      have hadd : Clause.addTo path j f.query f.parameters c.sink = .ok () _ :=
        Builder.addTo_eq_ok_iff.mpr ⟨hbound, rfl⟩
      simp only [Composing.onSink, hadd]
      exact ⟨rfl, not_isCollision_of_ok _ _, Or.inr (by simp [stateAfter, Builder.extend,
        parametersOf, Clause.Item.contents, Clause.Item.contentsOf])⟩

theorem makesCalls_addClauseBy (registry : Registry) (path : Path)
    (fieldAlias condition join : Value) :
    MakesCalls [compileFragment registry fieldAlias condition]
      (Composing.onIds (compileFragment registry fieldAlias condition) >>= fun f ↦
        Composing.onSink (Builder.addClauseBy path join f.query f.parameters)) := by
  apply makesCalls_clause (drawsOne_compileFragment registry _ condition)
  intro f c hbound
  have hnone : c.sink.conflict? f.parameters = none := Builder.conflict?_eq_none_iff.mpr hbound
  cases hjoin : joinOf join with
  | error fault =>
      simp only [Composing.onSink, Builder.addClauseBy, Builder.bind, hnone, hjoin]
      exact ⟨rfl, not_isCollision_of_error (not_isCollision_of_joinOf hjoin) _, Or.inr rfl⟩
  | ok j =>
      simp only [Composing.onSink, Builder.addClauseBy, Builder.bind, hnone, hjoin]
      exact ⟨rfl, not_isCollision_of_ok _ _, Or.inr rfl⟩

theorem bindsAs_applyFlatEntries (registry : Registry) (path : Path) (base : Value)
    (entries : List (Value × Value)) :
    BindsAs (applyFlatEntries registry path base entries) (forM entries fun e ↦ bindFragment id
      (compileFragment registry (.text (baseAlias e.1 base)) e.2)) := by
  induction entries with
  | nil => exact fun _ ↦ rfl
  | cons entry rest ih =>
      obtain ⟨field, condition⟩ := entry
      rw [applyFlatEntries, List.forM_cons]
      refine BindsAs.bind ?_ fun _ ↦ ih
      have hsame : ∀ x : Composing Parameters Unit, Composing.reporting id x = x := fun x ↦ by
        funext s
        rw [Composing.reporting]
        cases x s <;> rfl
      rw [bindFragment, hsame]
      exact (BindsAs.onIds _).bind fun f ↦ BindsAs.addTo path .and f

end Criteria
