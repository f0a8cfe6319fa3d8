import Criteria.Proofs.Evaluation
import Criteria.Proofs.Guard
import Criteria.Proofs.Names

/-!
# Evaluation agrees with the composed clause

A tree that can be evaluated on a candidate composes to clauses, one for each of its leaves, and the
text of these clauses is true of the candidate just when the evaluation says so.  The items that the
tree composes to carry both readings: their truth is what the text says under precedence, and it is
the value of the evaluation, which folds the entries from the left.
-/

namespace Criteria.Clause

/-- Operands that are all joined in one way are folded from the left. -/
theorem sequenceTruth?_eq_foldl {j : Join} {operands : List (Join × Bool)}
    (h : ∀ p ∈ operands, p.1 = j) :
    sequenceTruth? operands = operands.foldl (fun v p ↦ Memory.joined j v p.2) none := by
  have hfold : ∀ (rest : List (Join × Bool)) (v : Bool),
      rest.foldl (fun v p ↦ Memory.joined j v p.2) (some v) =
        some (rest.foldl (fun v p ↦ j.apply v p.2) v) := by
    intro rest
    induction rest with
    | nil => exact fun v ↦ rfl
    | cons p rest ih => exact fun v ↦ ih (j.apply v p.2)
  cases operands with
  | nil => rfl
  | cons p rest =>
      obtain ⟨k, v⟩ := p
      have hrest : ∀ p ∈ rest, p.1 = j := fun p hp ↦ h p (List.mem_cons_of_mem _ hp)
      have hvalue : ((Runs.start.operand v).extend rest).value = _ :=
        Runs.value_extend_of_join (fun _ ↦ rfl) hrest
      have hstart : (Runs.start.operand v).value = v := by
        simp [Runs.value, Runs.operand, Runs.start]
      rw [sequenceTruth?, hvalue, hstart]
      exact (hfold rest v).symm

end Criteria.Clause

namespace Criteria.FilterTree

open Clause (Path Builder Item operands itemsTruth? queries tokensOf truth?)
open Memory (evaluateEntries evaluateEntry evaluateLeaf joined merged)

variable {registry : Registry} {base : Value} {r : Memory.Registry} {candidate : Memory.Candidate}

/-- The clauses that a tree composes to are the fragments of its leaves, in depth-first order. -/
theorem Composes.mapM_leaves {join : Join} {entries : List (Value × Value)} {ids ids' : IdSource}
    {items : List (Item Fragment)} (h : Composes registry base join entries ids items ids') :
    (entryLeaves entries).mapM (fun leaf ↦ leafFragment registry base leaf.1 leaf.2) ids =
      .ok (Item.contents items) ids' := by
  induction h with
  | nil => rfl
  | leaf hkey hleaf hrest ih =>
      rw [entryLeaves_leaf hkey, List.mapM_cons]
      refine bind_eq_ok_iff.mpr ⟨_, _, hleaf, ?_⟩
      exact bind_eq_ok_iff.mpr ⟨_, _, ih, rfl⟩
  | group hkey htrees hinner hrest ihInner ih =>
      rw [entryLeaves_group hkey htrees, List.mapM_append]
      refine bind_eq_ok_iff.mpr ⟨_, _, ihInner, ?_⟩
      exact bind_eq_ok_iff.mpr ⟨_, _, ih, rfl⟩

/-- A tree that can be evaluated composes to items, when the identifiers are without braces. -/
theorem exists_composes {lead : String} (hlead : IsPlain lead.toList) {join : Join}
    {before v : Option Bool} {entries : List (Value × Value)}
    (h : evaluateEntries registry r candidate join before entries = .ok v) (base : Value)
    (next : Int) : ∃ items next',
      Composes registry base join entries (.sequence lead next) items (.sequence lead next') := by
  have hplain : ∀ next : Int, IsPlain (IdSource.sequence lead next).current.toList := by
    intro next
    rw [IdSource.current, String.toList_append]
    exact isPlain_append.mpr ⟨hlead, isPlain_toString next⟩
  induction entries using entries_induction generalizing join before v next with
  | nil => exact ⟨[], next, .nil⟩
  | leaf field condition rest hkey ih =>
      obtain ⟨first, hfirst, hrest⟩ := Memory.evaluateEntries_cons_eq_ok_iff.mp h
      obtain ⟨value, hvalue⟩ := Memory.evaluateLeaf_of_evaluateEntries h (field, condition)
        (by rw [entryLeaves_leaf hkey]; exact List.mem_cons_self)
      obtain ⟨⟨a, hadmitted⟩, s, rfl⟩ := Memory.admission_of_evaluateLeaf hvalue
      obtain ⟨f, hf⟩ := exists_leafFragment hadmitted (hplain next) base s
      rw [Admitted.idsAfter_sequence] at hf
      obtain ⟨items, last, hitems⟩ := ih hrest _
      exact ⟨_, last, .leaf hkey hf hitems⟩
  | group field condition rest key hkey ihTrees ih =>
      obtain ⟨first, hfirst, hrest⟩ := Memory.evaluateEntries_cons_eq_ok_iff.mp h
      obtain ⟨trees, htrees⟩ : ∃ trees, Lists condition trees := by
        rw [evaluateEntry, hkey] at hfirst
        exact Memory.exists_lists_of_evaluateGroup hfirst
      rw [Memory.evaluateEntry_group hkey htrees] at hfirst
      obtain ⟨inner, middle, hinner⟩ := ihTrees trees htrees hfirst next
      obtain ⟨items, last, hitems⟩ := ih hrest middle
      exact ⟨_, last, .group hkey htrees hinner hitems⟩

/-! ## The truth of leaves -/

variable (registry r candidate) in
/-- A truth assignment that gives each clause from `count` on the value of the leaf at its place. -/
def Agrees (truth : Nat → Bool) (count : Nat) (leaves : List (Value × Value)) : Prop :=
  ∀ i leaf, leaves[i]? = some leaf →
    evaluateLeaf registry r candidate leaf.1 leaf.2 = .ok (truth (count + i))

theorem Agrees.cons {truth : Nat → Bool} {count : Nat} {leaf : Value × Value}
    {leaves : List (Value × Value)} (h : Agrees registry r candidate truth count (leaf :: leaves)) :
    evaluateLeaf registry r candidate leaf.1 leaf.2 = .ok (truth count) ∧
      Agrees registry r candidate truth (count + 1) leaves := by
  constructor
  · exact h 0 leaf rfl
  · intro i other hother
    have hplace : count + 1 + i = count + (i + 1) := by omega
    rw [hplace]
    exact h (i + 1) other hother

theorem Agrees.append {truth : Nat → Bool} {count : Nat} {leaves others : List (Value × Value)}
    (h : Agrees registry r candidate truth count (leaves ++ others)) :
    Agrees registry r candidate truth count leaves ∧
      Agrees registry r candidate truth (count + leaves.length) others := by
  constructor
  · intro i leaf hleaf
    obtain ⟨hlt, -⟩ := List.getElem?_eq_some_iff.mp hleaf
    exact h i leaf (by rw [List.getElem?_append_left hlt, hleaf])
  · intro i leaf hleaf
    rw [Nat.add_assoc]
    refine h (leaves.length + i) leaf ?_
    rw [List.getElem?_append_right (Nat.le_add_right _ _), Nat.add_sub_cancel_left, hleaf]

theorem exists_agrees {leaves : List (Value × Value)}
    (h : ∀ leaf ∈ leaves, ∃ v, evaluateLeaf registry r candidate leaf.1 leaf.2 = .ok v) :
    ∃ truth, Agrees registry r candidate truth 0 leaves := by
  refine ⟨fun i ↦ leaves[i]?.any fun leaf ↦
    (evaluateLeaf registry r candidate leaf.1 leaf.2).toOption.getD false, ?_⟩
  intro i leaf hleaf
  obtain ⟨v, hv⟩ := h leaf (List.mem_of_getElem? hleaf)
  simp only [Nat.zero_add, hleaf, hv, Except.toOption, Option.any_some, Option.getD_some]

theorem Composes.length_contents {join : Join} {entries : List (Value × Value)}
    {ids ids' : IdSource} {items : List (Item Fragment)}
    (h : Composes registry base join entries ids items ids') :
    (Item.contents items).length = (entryLeaves entries).length := by
  induction h with
  | nil => rfl
  | leaf hkey hleaf hrest ih =>
      rw [entryLeaves_leaf hkey, List.length_cons, ← ih]
      rfl
  | group hkey htrees hinner hrest ihInner ih =>
      rw [entryLeaves_group hkey htrees, List.length_append, ← ihInner, ← ih]
      simp [Item.contents, Item.contentsOf]

theorem Composes.itemsTruth?_eq {join : Join} {entries : List (Value × Value)} {ids ids' : IdSource}
    {items : List (Item Fragment)} (h : Composes registry base join entries ids items ids')
    (truth : Nat → Bool) (count : Nat) : itemsTruth? truth count items =
      (operands truth count items).foldl (fun v p ↦ joined join v p.2) none := by
  apply Clause.sequenceTruth?_eq_foldl
  intro p hp
  obtain ⟨item, hitem, hjoin⟩ := Clause.exists_join_of_mem_operands hp
  rw [← hjoin]
  exact h.join_eq item hitem

/-- Evaluating entries folds the operands of their items, when the clauses have the values of the
leaves. -/
theorem Composes.evaluateEntries_eq {join : Join} {entries : List (Value × Value)}
    {ids ids' : IdSource} {items : List (Item Fragment)}
    (h : Composes registry base join entries ids items ids') {truth : Nat → Bool} {count : Nat}
    (hagrees : Agrees registry r candidate truth count (entryLeaves entries))
    (before : Option Bool) : evaluateEntries registry r candidate join before entries =
      .ok ((operands truth count items).foldl (fun v p ↦ joined join v p.2) before) := by
  induction h generalizing count before with
  | nil => rfl
  | leaf hkey hleaf hrest ih =>
      rw [entryLeaves_leaf hkey] at hagrees
      obtain ⟨hvalue, hothers⟩ := hagrees.cons
      rw [Memory.evaluateEntries_cons, Memory.evaluateEntry_leaf hkey, hvalue,
        Clause.operands_clause]
      exact ih hothers _
  | group hkey htrees hinner hrest ihInner ih =>
      rw [entryLeaves_group hkey htrees] at hagrees
      obtain ⟨hheld, hothers⟩ := hagrees.append
      rw [← hinner.length_contents] at hothers
      rw [Memory.evaluateEntries_cons, Memory.evaluateEntry_group hkey htrees, ihInner hheld none,
        ← hinner.itemsTruth?_eq, Clause.operands_group, List.foldl_append]
      refine (ih hothers _).trans ?_
      cases itemsTruth? truth count _ <;> rfl

/-- A tree that can be evaluated can be composed, and its text says what the evaluation says.  The
text has one clause for each leaf, in depth-first order.  Under a truth assignment that gives each
clause the value of its leaf, the text read under precedence has the value of the evaluation, and
there is such an assignment.  The text is empty just when the evaluation has no value, and then the
tree is satisfied. -/
theorem text_agrees_with_evaluation {tree : Value} {verdict : Bool} {lead : String}
    (hlead : IsPlain lead.toList)
    (h : Memory.isSatisfiedBy registry r candidate tree = .ok verdict) (base : Value)
    (next : Int) :
    ∃ (b : Builder) (ids' : IdSource) (fragments : List Fragment) (value : Option Bool),
      FilterTree.apply registry base [] (.text Join.and.keyword) tree
        ⟨Builder.empty, .sequence lead next⟩ = .ok () ⟨b, ids'⟩ ∧
      (leaves tree).mapM (fun leaf ↦ leafFragment registry base leaf.1 leaf.2)
        (.sequence lead next) = .ok fragments ids' ∧
      queries (tokensOf b.items) = fragments.map (·.query) ∧
      Memory.evaluateSubtree registry r candidate .and tree = .ok value ∧
      verdict = value.getD true ∧
      (∃ truth, Agrees registry r candidate truth 0 (leaves tree)) ∧
      (∀ truth, Agrees registry r candidate truth 0 (leaves tree) →
        truth? truth (tokensOf b.items) = value) ∧
      ((b.build []).query = "" ↔ value = none) := by
  obtain ⟨value, hvalue, rfl⟩ : ∃ value,
      Memory.evaluateSubtree registry r candidate .and tree = .ok value ∧
        value.getD true = verdict := by
    rw [Memory.isSatisfiedBy] at h
    cases hinner : Memory.evaluateSubtree registry r candidate .and tree with
    | error fault => simp [hinner, Except.map] at h
    | ok value => exact ⟨value, rfl, by simpa [hinner, Except.map] using h⟩
  obtain ⟨entries, rfl⟩ : ∃ entries, tree = .dict entries := by
    cases tree with
    | dict entries => exact ⟨entries, rfl⟩
    | _ => simp [Memory.evaluateSubtree] at hvalue
  rw [Memory.evaluateSubtree] at hvalue
  obtain ⟨items, next', hitems⟩ := exists_composes hlead hvalue base next
  have hbind : Clause.Bindable [] (Item.contents items) :=
    (hitems.bindable rfl (by simp [NamedBefore])).1
  have hreplay : Clause.replay [] items Builder.empty = .ok () (Builder.empty.extend [] items) :=
    Clause.Builder.replay_eq_ok_iff.mpr ⟨hbind, rfl⟩
  have hwritten := hitems.query_ne_empty
  have htruth : ∀ truth, Agrees registry r candidate truth 0 (entryLeaves entries) →
      itemsTruth? truth 0 items = value := by
    intro truth hagrees
    have hfold := hitems.evaluateEntries_eq hagrees none
    rw [hvalue, ← hitems.itemsTruth?_eq] at hfold
    exact (Except.ok.inj hfold).symm
  obtain ⟨truth, hagrees⟩ := exists_agrees (Memory.evaluateLeaf_of_evaluateEntries hvalue)
  refine ⟨Builder.empty.extend [] items, .sequence lead next', Item.contents items, value,
    apply_eq_ok_iff.mpr ⟨.and, entries, items, rfl, rfl, hitems, hbind, hreplay⟩,
    hitems.mapM_leaves, Clause.queries_tokensOf items hwritten, hvalue, rfl, ⟨truth, hagrees⟩, ?_,
    ?_⟩
  · intro other hother
    exact (Clause.truth?_tokensOf other items hwritten).trans (htruth other hother)
  · exact (Clause.render_eq_empty_iff truth items hwritten).trans (by rw [htruth truth hagrees])

/-- Under `$or` there is a tree with nothing in it and one with two entries, of which the second
holds. -/
theorem text_agrees_with_evaluation_nested :
    ∃ (tree : Value) (candidate : Memory.Candidate) (b : Builder) (ids' : IdSource)
      (truth : Nat → Bool),
      IsPlain "p".toList ∧
      Memory.isSatisfiedBy Registry.full Memory.Registry.full candidate tree = .ok true ∧
      FilterTree.apply Registry.full (.text "e") [] (.text Join.and.keyword) tree
        ⟨Builder.empty, .sequence "p" 1⟩ = .ok () ⟨b, ids'⟩ ∧
      (b.build []).query = "(e.age >= :p1_gte_e_age OR e.name = :p2_equalTo_e_name)" ∧
      Agrees Registry.full Memory.Registry.full candidate truth 0 (leaves tree) ∧
      truth? truth (tokensOf b.items) = some true := by
  have hlead : IsPlain "p".toList := by decide
  obtain ⟨tree, candidate, b, ids', hsatisfied, hrun, hquery⟩ :
      ∃ (tree : Value) (candidate : Memory.Candidate) (b : Builder) (ids' : IdSource),
        Memory.isSatisfiedBy Registry.full Memory.Registry.full candidate tree = .ok true ∧
        FilterTree.apply Registry.full (.text "e") [] (.text Join.and.keyword) tree
          ⟨Builder.empty, .sequence "p" 1⟩ = .ok () ⟨b, ids'⟩ ∧
        (b.build []).query = "(e.age >= :p1_gte_e_age OR e.name = :p2_equalTo_e_name)" :=
    ⟨.dict [(.text "$or", .list [.dict [], .dict [(.text "age", .dict [(.text "$gte", .int 18)]),
        (.text "name", .text "Ann")]])],
      .plain (.dict [(.text "age", .int 17), (.text "name", .text "Ann")]), _, _, rfl, rfl,
      by decide⟩
  obtain ⟨b', last, fragments, value, happly, -, -, -, hverdict, ⟨truth, hagrees⟩, htruth,
      hempty⟩ := text_agrees_with_evaluation hlead hsatisfied (.text "e") 1
  obtain ⟨rfl, rfl⟩ : b = b' ∧ ids' = last := by simpa [hrun] using happly
  refine ⟨tree, candidate, b, ids', truth, hlead, hsatisfied, hrun, hquery, hagrees, ?_⟩
  rw [htruth truth hagrees]
  cases value with
  | none => simp [hquery] at hempty
  | some v => rw [hverdict]; rfl

end Criteria.FilterTree
