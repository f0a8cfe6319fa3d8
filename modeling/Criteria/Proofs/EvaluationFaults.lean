import Criteria.Proofs.Evaluation
import Criteria.Proofs.Locations

/-!
# Faults of an evaluation

A tree is evaluated entry by entry, in the order in which it is composed, up to the first entry that
fails.  A condition that is not admitted and a logical value that is no list are reported with their
field and cause, but without the way to them, and an element that is no mapping is reported as a
tree that is none.
-/

namespace Criteria

namespace FilterTree

open Clause (Builder)
open Memory (evaluateEntries evaluateEntry evaluateGroup evaluateLeaf evaluateSubtree
  evaluateSubtrees isSatisfiedBy)

variable (registry : Registry) (r : Memory.Registry) (candidate : Memory.Candidate)

/-- A condition is found that can be evaluated. -/
def Visit.Passes (v : Visit) : Prop :=
  ∃ field condition value, v.finding = .condition field condition ∧
    evaluateLeaf registry r candidate field condition = .ok value

/-- What an evaluation fails with at what it finds. -/
inductive Finding.FailsWith : Finding → Fault → Prop where
  | condition {field condition : Value} {fault : Fault}
      (h : evaluateLeaf registry r candidate field condition = .error fault) :
      FailsWith (.condition field condition) fault
  | notList (key : LogicalKey) (subtrees : Value) :
      FailsWith (.misshapen key (notList key subtrees))
        (.condition (.located (.text key.token) none (notList key subtrees) none))
  | notElement (key : LogicalKey) (index : Nat) (subtree : Value) :
      FailsWith (.misshapen key (notElement key index subtree)) (.condition (notMapping subtree))

/-- An evaluation goes through visits: it succeeds when all of them pass, and fails at the first
that does not. -/
inductive EvaluatesAs {α : Type} : List Visit → Except Fault α → Prop where
  | ok {visits : List Visit} (a : α) (h : ∀ v ∈ visits, v.Passes registry r candidate) :
      EvaluatesAs visits (.ok a)
  | error {done rest : List Visit} {v : Visit} {fault : Fault}
      (hdone : ∀ u ∈ done, u.Passes registry r candidate)
      (h : v.finding.FailsWith registry r candidate fault) :
      EvaluatesAs (done ++ v :: rest) (.error fault)

variable {registry r candidate}

/-! ## One visit after the other -/

namespace EvaluatesAs

variable {α β : Type} {visits others : List Visit}

theorem bind {x : Except Fault α} {f : α → Except Fault β}
    (hx : EvaluatesAs registry r candidate visits x)
    (hf : ∀ a, EvaluatesAs registry r candidate others (f a)) :
    EvaluatesAs registry r candidate (visits ++ others) (x.bind f) := by
  cases hx with
  | ok a h =>
      have hothers := hf a
      change EvaluatesAs registry r candidate _ (f a)
      generalize f a = y at hothers ⊢
      cases hothers with
      | ok b hothers => exact .ok b fun v hv ↦ (List.mem_append.mp hv).elim (h v) (hothers v)
      | error hdone hfail =>
          rw [← List.append_assoc]
          exact .error (fun v hv ↦ (List.mem_append.mp hv).elim (h v) (hdone v)) hfail
  | error hdone hfail =>
      rw [List.append_assoc]
      exact .error hdone hfail

theorem under {x : Except Fault α} (h : EvaluatesAs registry r candidate visits x)
    (key : LogicalKey) (index : Nat) :
    EvaluatesAs registry r candidate (visits.map (Visit.under key index)) x := by
  cases h with
  | ok a h => exact .ok a (List.forall_mem_map.mpr h)
  | error hdone hfail =>
      rw [List.map_append]
      exact .error (List.forall_mem_map.mpr hdone) hfail

end EvaluatesAs

theorem evaluatesAs_leaf (field condition : Value) :
    EvaluatesAs registry r candidate [⟨[], .condition field condition⟩]
      ((evaluateLeaf registry r candidate field condition).map some) := by
  cases hleaf : evaluateLeaf registry r candidate field condition with
  | error fault => exact .error (List.forall_mem_nil _) (.condition hleaf)
  | ok value => exact .ok _ (List.forall_mem_singleton.mpr ⟨field, condition, value, rfl, hleaf⟩)

/-- Entries are evaluated in the order in which they are visited. -/
theorem evaluatesAs_evaluateEntries (entries : List (Value × Value)) (join : Join)
    (before : Option Bool) : EvaluatesAs registry r candidate (entryVisits entries)
      (evaluateEntries registry r candidate join before entries) := by
  induction entries using trees_induction generalizing join before with
  | nil => exact .ok before (List.forall_mem_nil _)
  | leaf field condition rest hkey ih =>
      rw [entryVisits, hkey, Memory.evaluateEntries_cons, Memory.evaluateEntry_leaf hkey]
      exact (evaluatesAs_leaf field condition).bind fun value ↦ ih join _
  | group field condition rest key hkey ihInner ih =>
      have hsubtrees : ∀ subtrees, condition.items? = some subtrees → ∀ index before,
          EvaluatesAs registry r candidate (subtreesVisits key index subtrees)
            (evaluateSubtrees registry r candidate key before subtrees) := by
        intro subtrees hitems
        have hinner := ihInner subtrees hitems
        clear hitems
        induction subtrees with
        | nil => exact fun _ before ↦ .ok before (List.forall_mem_nil _)
        | cons subtree others ihOthers =>
            intro index before
            have hothers := ihOthers fun entries hmem ↦ hinner entries (List.mem_cons_of_mem _ hmem)
            rw [subtreesVisits, Memory.evaluateSubtrees_cons]
            refine EvaluatesAs.bind ?_ fun value ↦ hothers (index + 1) _
            cases subtree with
            | dict inner => exact (hinner inner List.mem_cons_self key.join none).under key index
            | _ => exact .error (List.forall_mem_nil _) (.notElement key index _)
      rw [entryVisits, hkey, Memory.evaluateEntries_cons, evaluateEntry, hkey]
      refine EvaluatesAs.bind ?_ fun value ↦ ih join _
      cases condition with
      | list subtrees => exact hsubtrees subtrees rfl 0 none
      | tuple subtrees => exact hsubtrees subtrees rfl 0 none
      | _ => exact .error (List.forall_mem_nil _) (.notList key _)

/-! ## The first visit that fails -/

theorem Finding.FailsWith.not_passes {v : Visit} {fault : Fault}
    (h : v.finding.FailsWith registry r candidate fault) : ¬v.Passes registry r candidate := by
  rintro ⟨field, condition, value, hfinding, hvalue⟩
  rw [hfinding] at h
  cases h with
  | condition hfault => cases hvalue.symm.trans hfault

/-- An evaluation fails at a visit that does not pass when all visits before it do. -/
theorem EvaluatesAs.exists_fault {α : Type} {done rest : List Visit} {v : Visit}
    {x : Except Fault α} (h : EvaluatesAs registry r candidate (done ++ v :: rest) x)
    (hdone : ∀ u ∈ done, u.Passes registry r candidate) (hv : ¬v.Passes registry r candidate) :
    ∃ fault, x = .error fault ∧ v.finding.FailsWith registry r candidate fault := by
  generalize hvisits : done ++ v :: rest = visits at h
  cases h with
  | ok a h => exact absurd (h v (hvisits ▸ by simp)) hv
  | @error done' rest' v' fault hdone' hfail =>
      refine ⟨fault, rfl, ?_⟩
      rcases List.append_eq_append_iff.mp hvisits with ⟨between, rfl, hrest⟩ | ⟨between, rfl, hrest⟩
      · obtain _ | ⟨first, others⟩ := between
        · obtain rfl : v = v' := (List.cons.inj hrest).1
          exact hfail
        · obtain rfl : v = first := (List.cons.inj hrest).1
          exact absurd (hdone' v (by simp)) hv
      · obtain _ | ⟨first, others⟩ := between
        · obtain rfl : v' = v := (List.cons.inj hrest).1
          exact hfail
        · obtain rfl : v' = first := (List.cons.inj hrest).1
          exact absurd (hdone v' (by simp)) hfail.not_passes

theorem notList_ne_notElement (key key' : LogicalKey) (subtrees subtree : Value) (index : Nat) :
    notList key subtrees ≠ notElement key' index subtree := by
  intro h
  injection h with _ hreason
  have hchars := congrArg String.toList (Option.some.inj hreason)
  simp only [String.toList_append] at hchars
  cases key <;> cases key' <;> simp [LogicalKey.token] at hchars

theorem fault_of_failsWith_notList {key : LogicalKey} {subtrees : Value} {fault : Fault}
    (h : Finding.FailsWith registry r candidate (.misshapen key (notList key subtrees)) fault) :
    fault = .condition (.located (.text key.token) none (notList key subtrees) none) := by
  generalize hfinding : Finding.misshapen key (notList key subtrees) = finding at h
  cases h with
  | condition h => cases hfinding
  | notList key' subtrees' =>
      obtain ⟨rfl, hsame⟩ := Finding.misshapen.inj hfinding
      rw [hsame]
  | notElement key' index subtree =>
      exact absurd (Finding.misshapen.inj hfinding).2 (notList_ne_notElement _ _ _ _ _)

theorem fault_of_failsWith_notElement {key : LogicalKey} {index : Nat} {subtree : Value}
    {fault : Fault}
    (h : Finding.FailsWith registry r candidate
      (.misshapen key (notElement key index subtree)) fault) :
    fault = .condition (notMapping subtree) := by
  generalize hfinding : Finding.misshapen key (notElement key index subtree) = finding at h
  cases h with
  | condition h => cases hfinding
  | notList key' subtrees =>
      exact absurd (Finding.misshapen.inj hfinding).2.symm (notList_ne_notElement _ _ _ _ _)
  | notElement key' index' subtree' =>
      obtain rfl : subtree = subtree' :=
        (ConditionFault.conditionShape.inj (Finding.misshapen.inj hfinding).2).1
      rfl

/-! ## What composing says about an evaluation -/

variable {base : Value}

theorem exists_fragment_of_mapM {visits : List Visit} {ids ids' : IdSource}
    {fragments : List Fragment}
    (h : visits.mapM (fun v ↦ v.finding.fragment registry base) ids = .ok fragments ids') :
    ∀ v ∈ visits, ∃ ids f ids', v.finding.fragment registry base ids = .ok f ids' := by
  induction visits generalizing ids ids' fragments with
  | nil => exact List.forall_mem_nil _
  | cons v rest ih =>
      rw [List.mapM_cons] at h
      obtain ⟨f, middle, hfirst, hrest⟩ := bind_eq_ok_iff.mp h
      obtain ⟨others, last, hothers, -⟩ := bind_eq_ok_iff.mp hrest
      exact List.forall_mem_cons.mpr ⟨⟨ids, f, middle, hfirst⟩, ih hothers⟩

/-- What is composed before the first fault passes when its conditions can be evaluated. -/
theorem passes_of_mapM {visits : List Visit} {ids ids' : IdSource} {fragments : List Fragment}
    (h : visits.mapM (fun v ↦ v.finding.fragment registry base) ids = .ok fragments ids')
    (hleaves : ∀ leaf ∈ visits.filterMap Visit.leaf?,
      ∃ value, evaluateLeaf registry r candidate leaf.1 leaf.2 = .ok value) :
    ∀ v ∈ visits, v.Passes registry r candidate := by
  intro v hv
  obtain ⟨position, finding⟩ := v
  cases finding with
  | condition field condition =>
      obtain ⟨value, hvalue⟩ :=
        hleaves (field, condition) (List.mem_filterMap.mpr ⟨_, hv, rfl⟩)
      exact ⟨field, condition, value, rfl, hvalue⟩
  | misshapen key fault =>
      obtain ⟨_, _, _, hfragment⟩ := exists_fragment_of_mapM h _ hv
      cases hfragment

theorem isSatisfiedBy_of_not_passes {entries : List (Value × Value)} {done rest : List Visit}
    {v : Visit} (hsplit : entryVisits entries = done ++ v :: rest)
    (hdone : ∀ u ∈ done, u.Passes registry r candidate) (hv : ¬v.Passes registry r candidate) :
    ∃ fault, isSatisfiedBy registry r candidate (.dict entries) = .error fault ∧
      v.finding.FailsWith registry r candidate fault := by
  have hentries : EvaluatesAs registry r candidate (done ++ v :: rest)
      (evaluateEntries registry r candidate .and none entries) :=
    hsplit ▸ evaluatesAs_evaluateEntries entries .and none
  obtain ⟨fault, hfault, hfails⟩ := hentries.exists_fault hdone hv
  refine ⟨fault, ?_, hfails⟩
  rw [isSatisfiedBy, evaluateSubtree, hfault]
  rfl

theorem positionText_append_eq_self_iff {position : Position} {field : String} :
    positionText position ++ field = field ↔ position = [] := by
  constructor
  · intro h
    cases position with
    | nil => rfl
    | cons step rest =>
        have hlength := congrArg String.length h
        rw [String.length_append, Nat.add_eq_right, String.length_eq_zero_iff] at hlength
        have hne := positionText_append_ne_empty step.1 step.2 rest ""
        rw [String.append_empty] at hne
        exact absurd hlength hne
  · rintro rfl
    exact String.empty_append

theorem Fault.atPosition_unwrittenNumber (field : Value) (position : Position) :
    Fault.atPosition field position .unwrittenNumber = .unwrittenNumber := by
  induction position with
  | nil => rfl
  | cons step rest ih =>
      rw [Fault.atPosition, ih]
      rfl

/-- A condition that is not admitted fails with the fault for its field alone. -/
theorem isSatisfiedBy_of_admission {entries : List (Value × Value)} {done rest : List Visit}
    {position : Position} {field condition : Value} {cause : ConditionFault}
    (hsplit : entryVisits entries = done ++ ⟨position, .condition field condition⟩ :: rest)
    (hdone : ∀ u ∈ done, u.Passes registry r candidate)
    (h : admission registry condition = .error cause) :
    isSatisfiedBy registry r candidate (.dict entries) =
      .error ((Fault.raised cause).withField field) := by
  have hrefused : evaluateLeaf registry r candidate field condition =
      .error ((Fault.raised cause).withField field) := by
    rw [evaluateLeaf, h]
  obtain ⟨fault, hfault, hfails⟩ := isSatisfiedBy_of_not_passes hsplit hdone
    (Finding.FailsWith.condition hrefused).not_passes
  cases hfails with
  | condition hevaluated => rw [hfault, ← hrefused, hevaluated]

/-- When a tree of named fields is rejected for an entry, a candidate on which the conditions before
it can be evaluated makes the evaluation fail at the same entry.  Unless an element of a logical
list is at fault, the evaluation reports the same field and the same cause.  It never reports the
way to the entry, so the path is the same just when the entry stands in no list.  An element that is
no mapping is reported without its place, its list and its key.  A condition whose fault cannot be
written fails in the same way on either side. -/
theorem evaluation_reports_field_alone {join : Value} {j : Join} {entries : List (Value × Value)}
    {ids ids' : IdSource} {b : Builder} {fault : Fault} (hjoin : Clause.joinOf join = .ok j)
    (hfields : ∀ leaf ∈ entryLeaves entries, leaf.1.isText = true)
    (hplain : ∀ id ∈ ids.take (entryVisits entries).length, IsPlain id.toList)
    (hfresh : (ids.take (entryVisits entries).length).Pairwise AreSeparate)
    (h : FilterTree.apply registry base [] join (.dict entries) ⟨Builder.empty, ids⟩ =
      .error fault ⟨b, ids'⟩) :
    ∃ (done rest : List Visit) (v : Visit) (field : String) (condition : Value)
      (cause : ConditionFault),
      entryVisits entries = done ++ v :: rest ∧
      Reaches entries v.position (.text field) condition ∧
      ((cause.hasMessage = false ∧ fault = .unwrittenNumber ∧
        ∀ (r : Memory.Registry) (candidate : Memory.Candidate),
          (∀ leaf ∈ done.filterMap Visit.leaf?,
            ∃ value, evaluateLeaf registry r candidate leaf.1 leaf.2 = .ok value) →
          isSatisfiedBy registry r candidate (.dict entries) = .error .unwrittenNumber) ∨
      ∃ path : Option String,
      fault = .condition (.located (.text field) path cause (some cause)) ∧
      (ConditionFault.position (.text field) path = ConditionFault.position (.text field) none ↔
        v.position = []) ∧
      ((∃ chained, (logicalKey? (.text field) = none ∧ chained = some cause ∨
          logicalKey? (.text field) ≠ none ∧ condition.items? = none ∧ chained = none) ∧
        ∀ (r : Memory.Registry) (candidate : Memory.Candidate),
          (∀ leaf ∈ done.filterMap Visit.leaf?,
            ∃ value, evaluateLeaf registry r candidate leaf.1 leaf.2 = .ok value) →
          isSatisfiedBy registry r candidate (.dict entries) =
            .error (.condition (.located (.text field) none cause chained))) ∨
      ∃ key subtrees index subtree, logicalKey? (.text field) = some key ∧
        condition.items? = some subtrees ∧ subtrees[index]? = some subtree ∧
        (∀ inner, subtree ≠ .dict inner) ∧ cause = notElement key index subtree ∧
        ∀ (r : Memory.Registry) (candidate : Memory.Candidate),
          (∀ leaf ∈ done.filterMap Visit.leaf?,
            ∃ value, evaluateLeaf registry r candidate leaf.1 leaf.2 = .ok value) →
          isSatisfiedBy registry r candidate (.dict entries) =
            .error (.condition (notMapping subtree)))) := by
  obtain ⟨done, rest, ⟨position, finding⟩, fragments, middle, field, condition, cause, hsplit,
    hdone, hreaches, hat, -, hrejected, rfl⟩ := exists_first_fault hjoin hfields hplain hfresh h
  refine ⟨done, rest, ⟨position, finding⟩, field, condition, cause, hsplit, hreaches, ?_⟩
  cases hmessage : cause.hasMessage with
  | false =>
      have hraised : Fault.raised cause = .unwrittenNumber := if_neg (by simp [hmessage])
      refine Or.inl ⟨rfl, ?_, fun r candidate hleaves ↦ ?_⟩
      · rw [hraised, Fault.atPosition_unwrittenNumber]
      · cases hat with
        | condition hkey =>
            rw [isSatisfiedBy_of_admission hsplit (passes_of_mapM hdone hleaves) hrejected, hraised]
            rfl
        | notList hkey hitems =>
            cases hrejected
            cases hmessage
        | notElement hkey hitems hsubtree hne =>
            cases hrejected
            cases hmessage
  | true =>
      have hraised := ConditionFault.raised_of_hasMessage hmessage
      obtain ⟨path, hpath, hposition⟩ :=
        Fault.atPosition_condition (hrejected.isElementary hat) field position
      refine Or.inr ⟨path, by rw [hraised, hpath], ?_, ?_⟩
      · rw [hposition]
        change Value.text (positionText position ++ field) = .text field ↔ position = []
        rw [Value.text.injEq, positionText_append_eq_self_iff]
      cases hat with
      | condition hkey =>
          refine Or.inl ⟨some cause, Or.inl ⟨hkey, rfl⟩, fun r candidate hleaves ↦ ?_⟩
          rw [isSatisfiedBy_of_admission hsplit (passes_of_mapM hdone hleaves) hrejected, hraised,
            Fault.withField, Fault.ofField, ConditionFault.raised_located rfl]
      | @notList key hkey hitems =>
          obtain rfl : notList key condition = cause := hrejected
          refine Or.inl ⟨none, Or.inr ⟨by simp [hkey], hitems, rfl⟩, fun r candidate hleaves ↦ ?_⟩
          obtain ⟨fault, hfault, hfails⟩ := isSatisfiedBy_of_not_passes hsplit
            (passes_of_mapM hdone hleaves) (Finding.FailsWith.notList key condition).not_passes
          rw [hfault, fault_of_failsWith_notList hfails, logicalKey?_eq_some hkey]
      | @notElement key subtrees index subtree hkey hitems hsubtree hne =>
          obtain rfl : notElement key index subtree = cause := hrejected
          refine Or.inr ⟨key, subtrees, index, subtree, hkey, hitems, hsubtree, hne, rfl,
            fun r candidate hleaves ↦ ?_⟩
          obtain ⟨fault, hfault, hfails⟩ := isSatisfiedBy_of_not_passes hsplit
            (passes_of_mapM hdone hleaves)
            (Finding.FailsWith.notElement key index subtree).not_passes
          rw [hfault, fault_of_failsWith_notElement hfails]

/-- A range with one end, in the second tree of a list. -/
theorem evaluation_reports_field_alone_range :
    ∃ (entries : List (Value × Value)) (b : Builder) (ids' : IdSource) (cause : ConditionFault),
      entries = [(.text "$or", .list [.dict [(.text "age", .int 30)],
        .dict [(.text "age", .dict [(.text "$between", .list [.int 18])])]])] ∧
      (∀ leaf ∈ entryLeaves entries, leaf.1.isText = true) ∧
      FilterTree.apply Registry.full (.text "e") [] (.text "AND") (.dict entries)
        ⟨Builder.empty, .standard⟩ =
          .error (.condition (.located (.text "age") (some "$or[1].age") cause (some cause)))
            ⟨b, ids'⟩ ∧
      isSatisfiedBy Registry.full Memory.Registry.full (.plain (.dict [(.text "age", .int 30)]))
        (.dict entries) = .error (.condition (.located (.text "age") none cause (some cause))) := by
  obtain ⟨entries, b, ids', cause, hentries, hfields, hrun, hcode⟩ :
      ∃ (entries : List (Value × Value)) (b : Builder) (ids' : IdSource) (cause : ConditionFault),
        entries = [(.text "$or", .list [.dict [(.text "age", .int 30)],
          .dict [(.text "age", .dict [(.text "$between", .list [.int 18])])]])] ∧
        (∀ leaf ∈ entryLeaves entries, leaf.1.isText = true) ∧
        FilterTree.apply Registry.full (.text "e") [] (.text "AND") (.dict entries)
          ⟨Builder.empty, .standard⟩ =
            .error (.condition (.located (.text "age") (some "$or[1].age") cause (some cause)))
              ⟨b, ids'⟩ ∧
        cause.code = "INVALID_OPERAND_SHAPE" :=
    ⟨_, _, _, _, rfl, by decide, rfl, rfl⟩
  obtain ⟨done, rest, v, field, condition, cause', hsplit, -, hcases⟩ :=
    evaluation_reports_field_alone rfl hfields
      (fun id hid ↦ IdSource.isPlain_of_mem_take_sequence (by decide) hid)
      (IdSource.pairwise_areSeparate_sequence "p" 1 _) hrun
  have hbefore : ∀ leaf ∈ done.filterMap Visit.leaf?, ∃ value, evaluateLeaf Registry.full
      Memory.Registry.full (.plain (.dict [(.text "age", .int 30)])) leaf.1 leaf.2 =
        .ok value := by
    subst hentries
    obtain _ | ⟨first, _ | ⟨second, others⟩⟩ := done
    · exact List.forall_mem_nil _
    · obtain rfl := (List.cons.inj hsplit).1
      exact List.forall_mem_singleton.mpr ⟨true, rfl⟩
    · have hlength := congrArg List.length hsplit
      change 2 = _ at hlength
      simp only [List.length_append, List.length_cons] at hlength
      omega
  rcases hcases with ⟨-, hfault, -⟩ | ⟨path, hfault, -, hcases⟩
  · cases hfault
  cases hfault
  rcases hcases with ⟨_, ⟨-, rfl⟩ | ⟨hkey, -, -⟩, hevaluation⟩ | ⟨_, _, _, _, hkey, -⟩
  · exact ⟨entries, b, ids', cause, hentries, hfields, hrun, hevaluation _ _ hbefore⟩
  · exact absurd rfl hkey
  · cases hkey

/-- The path to the second tree of a list is in the fault of composing and not in that of
evaluating, and an element that is no mapping has no field in the latter. -/
theorem evaluation_leaves_path_out :
    (∃ (c : Composition Builder) (cause : ConditionFault),
      FilterTree.apply Registry.full (.text "e") [] (.text "AND")
        (.dict [(.text "$or", .list [.dict [(.text "age", .int 30)],
          .dict [(.text "age", .dict [(.text "$between", .list [.int 18])])]])])
        ⟨Builder.empty, .standard⟩ =
          .error (.condition (.located (.text "age") (some "$or[1].age") cause (some cause))) c ∧
      isSatisfiedBy Registry.full Memory.Registry.full (.plain (.dict [(.text "age", .int 30)]))
        (.dict [(.text "$or", .list [.dict [(.text "age", .int 30)],
          .dict [(.text "age", .dict [(.text "$between", .list [.int 18])])]])]) =
            .error (.condition (.located (.text "age") none cause (some cause)))) ∧
    ∃ (c : Composition Builder) (cause : ConditionFault),
      FilterTree.apply Registry.full (.text "e") [] (.text "AND")
        (.dict [(.text "$or", .list [.int 5])]) ⟨Builder.empty, .standard⟩ =
          .error (.condition (.located (.text "$or") none cause (some cause))) c ∧
      cause = notElement .or 0 (.int 5) ∧
      isSatisfiedBy Registry.full Memory.Registry.full (.plain (.dict []))
        (.dict [(.text "$or", .list [.int 5])]) = .error (.condition (notMapping (.int 5))) :=
  ⟨⟨_, _, rfl, rfl⟩, _, _, rfl, rfl, rfl⟩

end FilterTree

end Criteria
