import Mathlib.Data.List.Basic
import Criteria.Proofs.Evaluation

/-!
# Rearranged trees

The entries of a mapping and the trees of a logical list can stand in any order.  Each of them is
evaluated, whatever those before it have come to, and joining truth values is commutative.  So a
rearranged tree fails on a candidate just when the tree does, and comes to the same if neither
fails; only which fault is reported depends on the order.
-/

namespace Criteria.FilterTree

/-- What lists the trees under a logical key. -/
def IsListing (wrap : List Value → Value) : Prop := wrap = .list ∨ wrap = .tuple

/-- A tree that comes of another by putting in another order, one after the other, the entries of
mappings and the elements of logical lists, at any depth.  The operand of a condition is one value,
and no part of the tree. -/
inductive Rearranged : Value → Value → Prop where
  | refl (tree : Value) : Rearranged tree tree
  | trans {tree middle other : Value} (h : Rearranged tree middle) (h' : Rearranged middle other) :
      Rearranged tree other
  | entries {entries others : List (Value × Value)} (h : entries.Perm others) :
      Rearranged (.dict entries) (.dict others)
  | mapping (field : Value) {entries others : List (Value × Value)} (h : entries.Perm others)
      (before after : List (Value × Value)) :
      Rearranged (.dict (before ++ (field, .dict entries) :: after))
        (.dict (before ++ (field, .dict others) :: after))
  | elements {field : Value} {key : LogicalKey} (hkey : logicalKey? field = some key)
      {wrap : List Value → Value} (hwrap : IsListing wrap) {subtrees others : List Value}
      (h : subtrees.Perm others) (before after : List (Value × Value)) :
      Rearranged (.dict (before ++ (field, wrap subtrees) :: after))
        (.dict (before ++ (field, wrap others) :: after))
  | element {field : Value} {key : LogicalKey} (hkey : logicalKey? field = some key)
      {wrap : List Value → Value} (hwrap : IsListing wrap) {subtree other : Value}
      (h : Rearranged subtree other) (front back : List Value)
      (before after : List (Value × Value)) :
      Rearranged (.dict (before ++ (field, wrap (front ++ subtree :: back)) :: after))
        (.dict (before ++ (field, wrap (front ++ other :: back)) :: after))

end Criteria.FilterTree

namespace Criteria.Memory

open FilterTree (IsListing Rearranged)

variable {compiler : Criteria.Registry} {r : Registry} {candidate : Candidate}

/-! ## Outcomes -/

theorem merged_right_comm (join : Join) (before first second : Option Bool) :
    merged join (merged join before first) second =
      merged join (merged join before second) first := by
  have hcomm : merged join first second = merged join second first := by
    cases first with
    | none => rw [merged_none]; rfl
    | some a =>
        cases second with
        | none => rfl
        | some b => cases join <;> simp [merged, joined, Join.apply, Bool.and_comm, Bool.or_comm]
  rw [merged_merged, merged_merged, hcomm]

/-- An outcome joined to the one before it, where a failure is the absence of an outcome. -/
def joinOutcomes (join : Join) (before outcome : Option (Option Bool)) : Option (Option Bool) :=
  before.bind fun b ↦ outcome.map (merged join b)

theorem joinOutcomes_right_comm (join : Join) (before first second : Option (Option Bool)) :
    joinOutcomes join (joinOutcomes join before first) second =
      joinOutcomes join (joinOutcomes join before second) first := by
  cases before with
  | none => rfl
  | some b =>
      cases first with
      | none => cases second <;> rfl
      | some v =>
          cases second with
          | none => rfl
          | some w => exact congrArg some (merged_right_comm join b v w)

theorem foldl_joinOutcomes_none {α : Type} (join : Join) (outcome : α → Option (Option Bool))
    (parts : List α) :
    parts.foldl (fun before part ↦ joinOutcomes join before (outcome part)) none = none := by
  induction parts with
  | nil => rfl
  | cons part rest ih => exact ih

/-- Outcomes are joined to the same in every order. -/
theorem foldl_joinOutcomes_perm {α : Type} {parts others : List α} (h : parts.Perm others)
    (join : Join) (outcome : α → Option (Option Bool)) (before : Option (Option Bool)) :
    parts.foldl (fun before part ↦ joinOutcomes join before (outcome part)) before =
      others.foldl (fun before part ↦ joinOutcomes join before (outcome part)) before :=
  h.foldl_eq' (fun v _ w _ b ↦ joinOutcomes_right_comm join b (outcome v) (outcome w)) before

theorem toOption_evaluateEntries (join : Join) (before : Option Bool)
    (entries : List (Value × Value)) :
    (evaluateEntries compiler r candidate join before entries).toOption =
      entries.foldl (fun before entry ↦ joinOutcomes join before
        (evaluateEntry compiler r candidate entry.1 entry.2).toOption) (some before) := by
  induction entries generalizing before with
  | nil => rfl
  | cons entry rest ih =>
      obtain ⟨field, condition⟩ := entry
      rw [evaluateEntries_cons, List.foldl_cons]
      cases evaluateEntry compiler r candidate field condition with
      | error fault => exact (foldl_joinOutcomes_none join _ rest).symm
      | ok value => exact ih (merged join before value)

theorem toOption_evaluateSubtrees (key : LogicalKey) (before : Option Bool)
    (subtrees : List Value) :
    (evaluateSubtrees compiler r candidate key before subtrees).toOption =
      subtrees.foldl (fun before subtree ↦ joinOutcomes key.join before
        (evaluateSubtree compiler r candidate key.join subtree).toOption) (some before) := by
  induction subtrees generalizing before with
  | nil => rfl
  | cons subtree rest ih =>
      rw [evaluateSubtrees, List.foldl_cons]
      cases evaluateSubtree compiler r candidate key.join subtree with
      | error fault => exact (foldl_joinOutcomes_none key.join _ rest).symm
      | ok value =>
          cases value with
          | none => exact ih before
          | some b => exact ih (joined key.join before b)

/-! ## One change -/

/-- Only the outcome of an entry counts for the entries that it stands among. -/
theorem toOption_evaluateSubtree_congr {field condition other : Value}
    (h : (evaluateEntry compiler r candidate field condition).toOption =
      (evaluateEntry compiler r candidate field other).toOption)
    (join : Join) (before after : List (Value × Value)) :
    (evaluateSubtree compiler r candidate join
        (.dict (before ++ (field, condition) :: after))).toOption =
      (evaluateSubtree compiler r candidate join
        (.dict (before ++ (field, other) :: after))).toOption := by
  simp only [evaluateSubtree, toOption_evaluateEntries, List.foldl_append, List.foldl_cons, h]

theorem evaluateEntry_listing {field : Value} {key : LogicalKey}
    (hkey : logicalKey? field = some key) {wrap : List Value → Value} (hwrap : IsListing wrap)
    (subtrees : List Value) : evaluateEntry compiler r candidate field (wrap subtrees) =
      evaluateSubtrees compiler r candidate key none subtrees := by
  rw [evaluateEntry, hkey]
  rcases hwrap with rfl | rfl <;> rfl

/-- A condition object has one entry, and so one order only, or it is refused. -/
theorem toOption_evaluateLeaf_perm {entries others : List (Value × Value)}
    (h : entries.Perm others) (field : Value) :
    (evaluateLeaf compiler r candidate field (.dict entries)).toOption =
      (evaluateLeaf compiler r candidate field (.dict others)).toOption := by
  by_cases hone : ∃ entry, entries = [entry]
  · obtain ⟨entry, rfl⟩ := hone
    rw [List.perm_singleton.mp h.symm]
  · have hrefused : ∀ es : List (Value × Value), (¬∃ entry, es = [entry]) →
        (evaluateLeaf compiler r candidate field (.dict es)).toOption = none := by
      intro es hes
      have hshape : Condition.classify (.dict es) = .error (.ambiguousShape (es.map (·.1))) := by
        rw [Condition.classify]
        rintro token operand rfl
        exact hes ⟨_, rfl⟩
      rw [evaluateLeaf, admission, hshape]
      rfl
    have hother : ¬∃ entry, others = [entry] := by
      rintro ⟨entry, rfl⟩
      exact hone ⟨entry, List.perm_singleton.mp h⟩
    rw [hrefused entries hone, hrefused others hother]

theorem toOption_evaluateEntry_perm {entries others : List (Value × Value)}
    (h : entries.Perm others) (field : Value) :
    (evaluateEntry compiler r candidate field (.dict entries)).toOption =
      (evaluateEntry compiler r candidate field (.dict others)).toOption := by
  cases hkey : logicalKey? field with
  | some key =>
      -- A logical key is refused without a list.
      rw [evaluateEntry, evaluateEntry, hkey]
      rfl
  | none =>
      have hleaf : (evaluateLeaf compiler r candidate field (.dict entries)).toOption =
          (evaluateLeaf compiler r candidate field (.dict others)).toOption :=
        toOption_evaluateLeaf_perm h field
      rw [evaluateEntry_leaf hkey, evaluateEntry_leaf hkey]
      cases hfirst : evaluateLeaf compiler r candidate field (.dict entries) <;>
        cases hsecond : evaluateLeaf compiler r candidate field (.dict others) <;>
        simp_all [Except.toOption, Except.map]

/-! ## Rearranged trees -/

theorem toOption_evaluateSubtree_rearranged {tree other : Value} (h : Rearranged tree other)
    (join : Join) : (evaluateSubtree compiler r candidate join tree).toOption =
      (evaluateSubtree compiler r candidate join other).toOption := by
  induction h generalizing join with
  | refl tree => rfl
  | trans _ _ ih ih' => exact (ih join).trans (ih' join)
  | entries h =>
      rw [evaluateSubtree, evaluateSubtree, toOption_evaluateEntries, toOption_evaluateEntries]
      exact foldl_joinOutcomes_perm h join _ _
  | mapping field h before after =>
      exact toOption_evaluateSubtree_congr (toOption_evaluateEntry_perm h field) join before after
  | elements hkey hwrap h before after =>
      apply toOption_evaluateSubtree_congr
      rw [evaluateEntry_listing hkey hwrap, evaluateEntry_listing hkey hwrap,
        toOption_evaluateSubtrees, toOption_evaluateSubtrees]
      exact foldl_joinOutcomes_perm h _ _ _
  | @element field key hkey wrap hwrap subtree other _ front back before after ih =>
      apply toOption_evaluateSubtree_congr
      rw [evaluateEntry_listing hkey hwrap, evaluateEntry_listing hkey hwrap,
        toOption_evaluateSubtrees, toOption_evaluateSubtrees]
      simp only [List.foldl_append, List.foldl_cons, ih key.join]

/-- A candidate makes a rearranged tree fail just when it makes the tree fail, and when it does not,
it satisfies either both or neither. -/
theorem order_is_immaterial {tree other : Value} (h : Rearranged tree other)
    (compiler : Criteria.Registry) (r : Registry) (candidate : Candidate) :
    ((∃ fault, isSatisfiedBy compiler r candidate tree = .error fault) ↔
      ∃ fault, isSatisfiedBy compiler r candidate other = .error fault) ∧
    ∀ satisfied satisfied', isSatisfiedBy compiler r candidate tree = .ok satisfied →
      isSatisfiedBy compiler r candidate other = .ok satisfied' → satisfied = satisfied' := by
  have houtcome : (evaluateSubtree compiler r candidate .and tree).toOption =
      (evaluateSubtree compiler r candidate .and other).toOption :=
    toOption_evaluateSubtree_rearranged h .and
  simp only [isSatisfiedBy]
  cases hfirst : evaluateSubtree compiler r candidate .and tree <;>
    cases hsecond : evaluateSubtree compiler r candidate .and other <;>
    simp_all [Except.toOption, Except.map]

/-- A tree with its entries, the elements of a group and the entries of one of them turned round. -/
theorem order_is_immaterial_nested :
    ∃ (tree other : Value) (candidate : Candidate), Rearranged tree other ∧
      tree = .dict [(.text "$or", .list [.dict [], .dict [(.text "age",
        .dict [(.text "$gte", .int 18)]), (.text "name", .text "Ann")]]),
        (.text "city", .text "$isNull")] ∧
      other = .dict [(.text "city", .text "$isNull"), (.text "$or", .list [.dict [
        (.text "name", .text "Ann"), (.text "age", .dict [(.text "$gte", .int 18)])], .dict []])] ∧
      isSatisfiedBy .full .full candidate tree = .ok true ∧
      isSatisfiedBy .full .full candidate other = .ok true := by
  have hor : logicalKey? (.text "$or") = some .or := rfl
  have hrearranged : Rearranged
      (.dict [(.text "$or", .list [.dict [], .dict [(.text "age",
        .dict [(.text "$gte", .int 18)]), (.text "name", .text "Ann")]]),
        (.text "city", .text "$isNull")])
      (.dict [(.text "city", .text "$isNull"), (.text "$or", .list [.dict [
        (.text "name", .text "Ann"), (.text "age", .dict [(.text "$gte", .int 18)])],
        .dict []])]) :=
    .trans (.entries (.swap _ _ _)) (.trans
      (.elements hor (Or.inl rfl) (.swap _ _ _) [_] [])
      (.element hor (Or.inl rfl) (.entries (.swap _ _ _)) [] [_] [_] []))
  have htree : isSatisfiedBy .full .full
      (.plain (.dict [(.text "age", .int 17), (.text "name", .text "Ann")]))
      (.dict [(.text "$or", .list [.dict [], .dict [(.text "age",
        .dict [(.text "$gte", .int 18)]), (.text "name", .text "Ann")]]),
        (.text "city", .text "$isNull")]) = .ok true := rfl
  obtain ⟨hfails, hequal⟩ := order_is_immaterial hrearranged .full .full
    (.plain (.dict [(.text "age", .int 17), (.text "name", .text "Ann")]))
  refine ⟨_, _, _, hrearranged, rfl, rfl, htree, ?_⟩
  cases hother : isSatisfiedBy .full .full
      (.plain (.dict [(.text "age", .int 17), (.text "name", .text "Ann")]))
      (.dict [(.text "city", .text "$isNull"), (.text "$or", .list [.dict [
        (.text "name", .text "Ann"), (.text "age", .dict [(.text "$gte", .int 18)])],
        .dict []])]) with
  | error fault =>
      obtain ⟨fault', hfault⟩ := hfails.mpr ⟨fault, hother⟩
      cases htree.symm.trans hfault
  | ok satisfied => rw [hequal true satisfied htree hother]

end Criteria.Memory
