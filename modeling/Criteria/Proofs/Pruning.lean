import Criteria.Proofs.Meaning
import Criteria.Proofs.Replay

/-!
# Items without empty groups

A group that holds no clause, at any depth, contributes nothing to a text and nothing to an
expression.  What is left when these groups are taken out is all that a sink is read for, and it
does not depend on where the groups stood, nor on what was in the sink before.
-/

namespace Criteria.Clause

namespace Item

variable {α : Type}

mutual

/-- An item without the groups in it that hold no clause, if a clause is left. -/
def prunedOf : Item α → List (Item α)
  | clause j content => [clause j content]
  | group j items =>
    match pruned items with
    | [] => []
    | first :: rest => [group j (first :: rest)]
termination_by structural item => item

/-- The items without the groups, at any depth, that hold no clause. -/
def pruned : List (Item α) → List (Item α)
  | [] => []
  | item :: rest => prunedOf item ++ pruned rest
termination_by structural items => items

end

theorem pruned_eq_flatMap (items : List (Item α)) : pruned items = items.flatMap prunedOf := by
  induction items with
  | nil => rfl
  | cons item rest ih => rw [pruned, ih, List.flatMap_cons]

theorem pruned_append (items others : List (Item α)) :
    pruned (items ++ others) = pruned items ++ pruned others := by
  simp only [pruned_eq_flatMap, List.flatMap_append]

theorem prunedOf_group_of_nil {items : List (Item α)} (h : pruned items = []) (j : Join) :
    prunedOf (group j items) = [] := by
  rw [prunedOf, h]

theorem prunedOf_group_of_ne_nil {items : List (Item α)} (h : pruned items ≠ []) (j : Join) :
    prunedOf (group j items) = [group j (pruned items)] := by
  obtain ⟨first, rest, hkept⟩ := List.exists_cons_of_ne_nil h
  rw [prunedOf, hkept]

/-- Only what is left of the items in a group counts for the group. -/
theorem prunedOf_group_congr {items others : List (Item α)} (h : pruned items = pruned others)
    (j : Join) : prunedOf (group j items) = prunedOf (group j others) := by
  rw [prunedOf, prunedOf, h]

theorem contents_pruned (items : List (Item α)) : contents (pruned items) = contents items := by
  induction items using sequence_induction with
  | nil => rfl
  | clause j content rest ih =>
      rw [pruned, contents_append, ih]
      rfl
  | group j inner rest ihInner ih =>
      have hgroup : contents (prunedOf (group j inner)) = contents inner := by
        by_cases hinner : pruned inner = []
        · rw [prunedOf_group_of_nil hinner, ← ihInner, hinner]
        · rw [prunedOf_group_of_ne_nil hinner, contents, contentsOf, ihInner]
          exact List.append_nil _
      rw [pruned, contents_append, hgroup, ih]
      rfl

theorem contents_eq_of_pruned_eq {items others : List (Item α)} (h : pruned items = pruned others) :
    contents items = contents others := by
  rw [← contents_pruned items, h, contents_pruned]

/-- Nothing is left just when there is no clause. -/
theorem pruned_eq_nil_iff {items : List (Item α)} : pruned items = [] ↔ contents items = [] := by
  constructor
  · intro h
    rw [← contents_pruned, h]
    rfl
  · intro h
    induction items using sequence_induction with
    | nil => rfl
    | clause j content rest ih => cases h
    | group j inner rest ihInner ih =>
        obtain ⟨hinner, hrest⟩ := List.append_eq_nil_iff.mp h
        rw [pruned, prunedOf_group_of_nil (ihInner hinner), ih hrest]
        rfl

theorem pruned_relabel {β : Type} (f : α → β) (items : List (Item α)) :
    pruned (relabel f items) = relabel f (pruned items) := by
  induction items using sequence_induction with
  | nil => rfl
  | clause j content rest ih =>
      rw [relabel, relabelOf, pruned, pruned, relabel_append, ih]
      rfl
  | group j inner rest ihInner ih =>
      have hgroup :
          prunedOf (group j (relabel f inner)) = relabel f (prunedOf (group j inner)) := by
        rw [prunedOf, prunedOf, ihInner]
        cases pruned inner <;> rfl
      rw [relabel, relabelOf, pruned, pruned, relabel_append, hgroup, ih]

/-! ## Changes at a path -/

theorem pruned_modify_congr {items : List (Item α)} {i : Nat} {f g : Item α → Item α}
    (h : ∀ item, items[i]? = some item → prunedOf (f item) = prunedOf (g item)) :
    pruned (items.modify i f) = pruned (items.modify i g) := by
  induction items generalizing i with
  | nil => simp
  | cons item rest ih =>
      cases i with
      | zero => simp only [List.modify_zero_cons, pruned, h item rfl]
      | succ i => simp only [List.modify_succ_cons, pruned, ih (i := i) h]

/-- Additions of which the same is left leave the same. -/
theorem pruned_extendAt_congr {new newer : List (Item α)} (h : pruned new = pruned newer)
    (path : Path) (items : List (Item α)) :
    pruned (extendAt path new items) = pruned (extendAt path newer items) := by
  induction path generalizing items with
  | nil =>
      change pruned (items ++ new) = pruned (items ++ newer)
      rw [pruned_append, pruned_append, h]
  | cons i path ih =>
      apply pruned_modify_congr
      intro item _
      cases item with
      | clause j content => rfl
      | group j inner => exact prunedOf_group_congr (ih inner) j

/-- The same holds of every group that was open before. -/
theorem pruned_itemsAt_extendAt_congr {new newer : List (Item α)} (h : pruned new = pruned newer)
    (path : Path) {place : Path} {items : List (Item α)} (hopen : IsOpen place items) :
    pruned (itemsAt place (extendAt path new items)) =
      pruned (itemsAt place (extendAt path newer items)) := by
  induction place generalizing path items with
  | nil => exact pruned_extendAt_congr h path items
  | cons i place ih =>
      obtain ⟨j, inner, hitem, hinner⟩ := hopen
      have hlt : i < items.length := (List.getElem?_eq_some_iff.mp hitem).1
      cases path with
      | nil =>
          change pruned (itemsAt (i :: place) (items ++ new)) =
            pruned (itemsAt (i :: place) (items ++ newer))
          rw [itemsAt, itemsAt, List.getElem?_append_left hlt, List.getElem?_append_left hlt]
      | cons k path =>
          change pruned (itemsAt (i :: place) (items.modify k _)) =
            pruned (itemsAt (i :: place) (items.modify k _))
          rw [itemsAt, itemsAt, List.getElem?_modify, List.getElem?_modify, hitem]
          by_cases hk : k = i
          · simp only [hk, if_true, inGroup]
            exact ih path hinner
          · simp only [hk, if_false]

end Item

/-! ## What the items say -/

theorem itemParts_append (items others : List (Item Fragment)) :
    itemParts (items ++ others) = itemParts items ++ itemParts others := by
  induction items with
  | nil => rfl
  | cons item rest ih =>
      rw [List.cons_append, itemParts, itemParts, ih]
      cases itemPart item <;> rfl

/-- A group without clauses renders to nothing. -/
theorem itemParts_pruned (items : List (Item Fragment)) :
    itemParts (Item.pruned items) = itemParts items := by
  induction items using Item.sequence_induction with
  | nil => rfl
  | clause j content rest ih =>
      rw [Item.pruned, itemParts_append, ih]
      rfl
  | group j inner rest ihInner ih =>
      rw [Item.pruned, itemParts_append, ih]
      by_cases hinner : Item.pruned inner = []
      · have hnothing : itemPart (.group j inner) = none := by
          rw [itemPart, ← ihInner, hinner]
          rfl
        have hskip : itemParts (.group j inner :: rest) = itemParts rest := by
          simp only [itemParts, hnothing]
        rw [Item.prunedOf_group_of_nil hinner, hskip]
        rfl
      · have hsame : itemPart (.group j (Item.pruned inner)) = itemPart (.group j inner) := by
          rw [itemPart, itemPart, ihInner]
        rw [Item.prunedOf_group_of_ne_nil hinner, itemParts, hsame, itemParts, itemParts]
        cases itemPart (.group j inner) <;> rfl

theorem render_pruned (items : List (Item Fragment)) :
    render (Item.pruned items) = render items := by
  rw [render, tokensOf, itemParts_pruned]
  rfl

end Criteria.Clause

namespace Criteria.Sql.Expression

open Clause (Item)

variable {α : Type}

theorem partsOf_append (items others : List (Item α)) :
    partsOf (items ++ others) = partsOf items ++ partsOf others := by
  induction items with
  | nil => rfl
  | cons item rest ih =>
      rw [List.cons_append, partsOf, partsOf, ih]
      cases ofItem? item <;> rfl

/-- A group without clauses makes no expression. -/
theorem partsOf_pruned (items : List (Item α)) : partsOf (Item.pruned items) = partsOf items := by
  induction items using Item.sequence_induction with
  | nil => rfl
  | clause j content rest ih =>
      rw [Item.pruned, partsOf_append, ih]
      rfl
  | group j inner rest ihInner ih =>
      rw [Item.pruned, partsOf_append, ih]
      by_cases hinner : Item.pruned inner = []
      · have hnothing : ofItem? (.group j inner) = none := by
          rw [ofItem?, ← ihInner, hinner]
          rfl
        have hskip : partsOf (.group j inner :: rest) = partsOf rest := by
          simp only [partsOf, hnothing]
        rw [Item.prunedOf_group_of_nil hinner, hskip]
        rfl
      · have hsame : ofItem? (.group j (Item.pruned inner)) = ofItem? (.group j inner) := by
          rw [ofItem?, ofItem?, ihInner]
        rw [Item.prunedOf_group_of_ne_nil hinner, partsOf, hsame, partsOf, partsOf]
        cases ofItem? (.group j inner) <;> rfl

theorem ofItems?_pruned (items : List (Item α)) :
    ofItems? (Item.pruned items) = ofItems? items := by
  rw [ofItems?, partsOf_pruned]
  rfl

theorem ofItems?_eq_none_iff {items : List (Item α)} :
    ofItems? items = none ↔ Item.contents items = [] := by
  constructor
  · intro h
    rw [← atoms_ofItems?, h]
    rfl
  · intro h
    rw [← ofItems?_pruned, Item.pruned_eq_nil_iff.mpr h]
    rfl

end Criteria.Sql.Expression

/-! ## Items that are added to a sink -/

namespace Criteria.Clause

/-- Additions of which the same is left are read as the same from every group that was open. -/
theorem Builder.build_extend_congr {items others : List (Item Fragment)}
    (h : Item.pruned items = Item.pruned others) (path : Path) {place : Path} {b : Builder}
    (hopen : Item.IsOpen place b.items) :
    (b.extend path items).build place = (b.extend path others).build place := by
  have hitems : Item.pruned (Item.itemsAt place (b.extend path items).items) =
      Item.pruned (Item.itemsAt place (b.extend path others).items) :=
    Item.pruned_itemsAt_extendAt_congr h path hopen
  have hbound : (b.extend path items).bound = (b.extend path others).bound := by
    rw [extend, extend, Item.contents_eq_of_pruned_eq h]
  rw [build, build, ← render_pruned, hitems, render_pruned, hbound]

theorem BoundAs.pruned_eq {items others : List (Item Fragment)}
    {texts newer : List (Item Sql.BoundText)} (h : BoundAs items texts) (h' : BoundAs others newer)
    (hpruned : Item.pruned items = Item.pruned others) : Item.pruned texts = Item.pruned newer := by
  have hinjective : (Except.ok : Sql.BoundText → Except Fault Sql.BoundText).Injective :=
    fun _ _ ↦ Except.ok.inj
  apply Item.relabel_injective hinjective
  rw [← Item.pruned_relabel, ← Item.pruned_relabel, ← h, ← h', Item.pruned_relabel,
    Item.pruned_relabel, hpruned]

/-- What can be replayed can be replayed with groups that hold no clause, and makes the same
expressions. -/
theorem exists_replay_whereClause_of_pruned_eq {path : Path} {items others : List (Item Fragment)}
    {w w' : Sql.WhereClause} (h : replay path items w = .ok () w')
    (hpruned : Item.pruned items = Item.pruned others) :
    ∃ v, replay path others w = .ok () v ∧
      ∀ place, Item.IsOpen place w.items → v.build? place = w'.build? place := by
  obtain ⟨new, hnew, hadd⟩ := replay_whereClause h
  have htexts : ∀ f ∈ Item.contents others, ∃ t, boundText f = .ok t := by
    intro f hf
    rw [← Item.contents_eq_of_pruned_eq hpruned] at hf
    have hmem : boundText f ∈ (Item.contents new).map .ok := by
      rw [← hnew.map_contents]
      exact List.mem_map_of_mem hf
    obtain ⟨t, -, ht⟩ := List.mem_map.mp hmem
    exact ⟨t, ht.symm⟩
  obtain ⟨v, hv⟩ := exists_replay_whereClause htexts path w
  obtain ⟨newer, hnewer, hadd'⟩ := replay_whereClause hv
  have htexts' : Item.pruned newer = Item.pruned new := hnewer.pruned_eq hnew hpruned.symm
  obtain rfl : w' = ⟨Item.extendAt path new w.items⟩ := by simpa [h] using hadd path w
  obtain rfl : v = ⟨Item.extendAt path newer w.items⟩ := by simpa [hv] using hadd' path w
  refine ⟨_, hv, fun place hopen ↦ ?_⟩
  rw [Sql.WhereClause.build?, Sql.WhereClause.build?, ← Sql.Expression.ofItems?_pruned,
    Item.pruned_itemsAt_extendAt_congr htexts' path hopen, Sql.Expression.ofItems?_pruned]

end Criteria.Clause
