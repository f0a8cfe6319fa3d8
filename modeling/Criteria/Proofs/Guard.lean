import Criteria.Proofs.Fragments
import Criteria.Proofs.Meaning
import Criteria.Proofs.Rendering
import Criteria.Proofs.Replay

/-!
# Trees behind a guard

A filter tree puts its items at the end of a sequence, each joined by the join of the whole tree,
and every other join that it has stands in brackets.  When everything in front of it is joined by
AND, the tree can only narrow down what is already there, whatever OR it has inside.
-/

namespace Criteria.Clause

variable {α : Type}

/-- Items that are joined by AND, but for the join of the first one, which says nothing. -/
def Conjoined (items : List (Item α)) : Prop := ∀ item ∈ items.tail, item.join = .and

/-- The truth of the text of a builder's group as a filter of rows: an empty text lets every row
through. -/
def Builder.filterTruth? (truth : Nat → Bool) (path : Path) (b : Builder) : Option Bool :=
  if (b.build path).query = "" then some true
  else truth? truth (tokensOf (Item.itemsAt path b.items))

/-- The truth of the expression of a where clause's group as a filter of rows. -/
def filterTruth (truth : Nat → Bool) (path : Path) (w : Sql.WhereClause) : Bool :=
  ((w.build? path).map (Sql.Expression.holds truth 0)).getD true

theorem Builder.filterTruth?_eq (truth : Nat → Bool) {path : Path} {b : Builder}
    (h : ∀ f ∈ Item.contents (Item.itemsAt path b.items), f.query ≠ "") :
    b.filterTruth? truth path =
      some ((itemsTruth? truth 0 (Item.itemsAt path b.items)).getD true) := by
  have hempty := render_eq_empty_iff truth _ h
  have hread := truth?_tokensOf truth _ h
  change (if render (Item.itemsAt path b.items) = "" then some true else _) = _
  cases htruth : itemsTruth? truth 0 (Item.itemsAt path b.items) with
  | none =>
      rw [if_pos (hempty.mpr htruth)]
      rfl
  | some v =>
      have hwritten : render (Item.itemsAt path b.items) ≠ "" := by
        intro htext
        rw [hempty.mp htext] at htruth
        cases htruth
      rw [if_neg hwritten, hread, htruth]
      rfl

theorem filterTruth_eq (truth : Nat → Bool) (path : Path) (w : Sql.WhereClause) :
    filterTruth truth path w = (itemsTruth? truth 0 (Item.itemsAt path w.items)).getD true := by
  rw [filterTruth, Sql.WhereClause.holds_build?]

/-! ## Sequences of AND -/

theorem foldl_and (operands : List (Join × Bool)) (v : Bool) :
    operands.foldl (fun v p ↦ Join.and.apply v p.2) v = (v && operands.all (·.2)) := by
  induction operands generalizing v with
  | nil => simp
  | cons p rest ih => rw [List.foldl_cons, ih, List.all_cons, Join.apply, Bool.and_assoc]

/-- Operands that are joined by AND hold together when all of them do. -/
theorem getD_sequenceTruth? {operands : List (Join × Bool)}
    (h : ∀ p ∈ operands.tail, p.1 = Join.and) :
    (sequenceTruth? operands).getD true = operands.all (·.2) := by
  cases operands with
  | nil => rfl
  | cons p rest =>
      obtain ⟨j, v⟩ := p
      have hvalue : ((Runs.start.operand v).extend rest).value = _ :=
        Runs.value_extend_of_join (fun _ ↦ rfl) h
      rw [sequenceTruth?, Option.getD_some, hvalue, foldl_and]
      simp [Runs.value, Runs.operand, Runs.start]

theorem Conjoined.operands {items : List (Item α)} (h : Conjoined items) (truth : Nat → Bool)
    (count : Nat) : ∀ p ∈ (operands truth count items).tail, p.1 = Join.and := by
  intro p hp
  cases items with
  | nil => simp [Clause.operands] at hp
  | cons item rest =>
      have hrest : p ∈ Clause.operands truth (count + (Item.contentsOf item).length) rest := by
        rw [Clause.operands] at hp
        cases hitem : itemTruth? truth count item with
        | none =>
            simp only [hitem] at hp
            exact List.mem_of_mem_tail hp
        | some v => simpa only [hitem, List.tail_cons] using hp
      obtain ⟨other, hother, hjoin⟩ := exists_join_of_mem_operands hrest
      rw [← hjoin]
      exact h other hother

theorem Conjoined.append {items new : List (Item α)} (h : Conjoined items)
    (hnew : ∀ item ∈ new, item.join = .and) : Conjoined (items ++ new) := by
  intro item hitem
  cases items with
  | nil => exact hnew item (List.mem_of_mem_tail hitem)
  | cons first rest =>
      rw [List.cons_append, List.tail_cons, List.mem_append] at hitem
      rcases hitem with hitem | hitem
      · exact h item hitem
      · exact hnew item hitem

/-- Items joined by AND and further items joined by AND hold together when both do.  The clauses of
the further items are numbered after the others. -/
theorem Conjoined.getD_itemsTruth?_append {items new : List (Item α)} (h : Conjoined items)
    (hnew : ∀ item ∈ new, item.join = .and) (truth : Nat → Bool) :
    (itemsTruth? truth 0 (items ++ new)).getD true =
      ((itemsTruth? truth 0 items).getD true &&
        (itemsTruth? (truthAfter (Item.contents items).length truth) 0 new).getD true) := by
  have halone : Conjoined new := fun item hitem ↦ hnew item (List.mem_of_mem_tail hitem)
  rw [itemsTruth?, itemsTruth?, itemsTruth?, getD_sequenceTruth? ((h.append hnew).operands truth 0),
    getD_sequenceTruth? (h.operands truth 0), getD_sequenceTruth? (halone.operands _ 0),
    operands_append, operands_truthAfter, List.all_append]
  simp

/-! ## Narrowing -/

/-- A builder's group after more has been added to it that stands `alone` in another builder: the
clauses of both are in its text, and it lets a row through just when both do.  The clauses that were
added are numbered after the others. -/
structure Narrowed (path : Path) (b alone b' : Builder) : Prop where
  queries : queries (tokensOf (Item.itemsAt path b'.items)) =
    queries (tokensOf (Item.itemsAt path b.items)) ++ queries (tokensOf alone.items)
  filterTruth (truth : Nat → Bool) : ∃ before own : Bool,
    b.filterTruth? truth path = some before ∧
    alone.filterTruth?
      (truthAfter (Clause.queries (tokensOf (Item.itemsAt path b.items))).length truth) [] =
        some own ∧
    b'.filterTruth? truth path = some (before && own)

/-- The same of a group of a where clause and its expression. -/
structure NarrowedExpression (path : Path) (w alone w' : Sql.WhereClause) : Prop where
  atoms : w'.atoms path = w.atoms path ++ alone.atoms []
  filterTruth (truth : Nat → Bool) : filterTruth truth path w' =
    (filterTruth truth path w && filterTruth (truthAfter (w.atoms path).length truth) [] alone)

variable {path : Path}

/-- Items joined by AND narrow down a group in which everything is joined by AND. -/
theorem Narrowed.extend {b : Builder} {new : List (Item Fragment)}
    (hopen : Item.IsOpen path b.items) (hguard : Conjoined (Item.itemsAt path b.items))
    (hwritten : ∀ f ∈ Item.contents (Item.itemsAt path b.items), f.query ≠ "")
    (hjoin : ∀ item ∈ new, item.join = .and) (hnew : ∀ f ∈ Item.contents new, f.query ≠ "") :
    Narrowed path b (Builder.empty.extend [] new) (b.extend path new) := by
  have hitems : Item.itemsAt path (b.extend path new).items = Item.itemsAt path b.items ++ new :=
    Item.itemsAt_extendAt hopen new
  have hall : ∀ f ∈ Item.contents (Item.itemsAt path (b.extend path new).items), f.query ≠ "" := by
    intro f hf
    rw [hitems, Item.contents_append, List.mem_append] at hf
    rcases hf with hf | hf
    · exact hwritten f hf
    · exact hnew f hf
  have hqueries := queries_tokensOf _ hwritten
  constructor
  · rw [queries_tokensOf _ hall, hqueries, hitems, Item.contents_append, List.map_append]
    exact congrArg _ (queries_tokensOf new hnew).symm
  · intro truth
    refine ⟨_, _, Builder.filterTruth?_eq truth hwritten, Builder.filterTruth?_eq _ hnew, ?_⟩
    rw [Builder.filterTruth?_eq truth hall, hitems, hguard.getD_itemsTruth?_append hjoin, hqueries,
      List.length_map]
    rfl

theorem NarrowedExpression.extend {w : Sql.WhereClause} {new : List (Item Sql.BoundText)}
    (hopen : Item.IsOpen path w.items) (hguard : Conjoined (Item.itemsAt path w.items))
    (hjoin : ∀ item ∈ new, item.join = .and) :
    NarrowedExpression path w ⟨new⟩ ⟨Item.extendAt path new w.items⟩ := by
  have hatoms := Sql.WhereClause.atoms_eq_contents path w
  constructor
  · rw [hatoms, Sql.WhereClause.atoms_eq_contents, Sql.WhereClause.atoms_eq_contents,
      Item.itemsAt_extendAt hopen, Item.contents_append]
    rfl
  · intro truth
    rw [filterTruth_eq, filterTruth_eq, filterTruth_eq, Item.itemsAt_extendAt hopen,
      hguard.getD_itemsTruth?_append hjoin, hatoms]
    rfl

theorem BoundAs.join_eq {j : Join} {items : List (Item Fragment)}
    {texts : List (Item Sql.BoundText)} (h : BoundAs items texts)
    (hjoin : ∀ item ∈ items, item.join = j) : ∀ text ∈ texts, text.join = j := by
  intro text htext
  have hmem : Item.relabelOf .ok text ∈ Item.relabel boundText items := by
    rw [h, Item.relabel_eq_map]
    exact List.mem_map_of_mem htext
  rw [Item.relabel_eq_map] at hmem
  obtain ⟨item, hitem, heq⟩ := List.mem_map.mp hmem
  rw [← Item.join_relabelOf Except.ok text, ← heq, Item.join_relabelOf]
  exact hjoin item hitem

theorem joinOf_keyword (j : Join) : joinOf (.text j.keyword) = .ok j := by
  cases j <;> rfl

end Criteria.Clause

namespace Criteria.FilterTree

open Clause (Path Builder Item Conjoined Narrowed NarrowedExpression filterTruth replay)
open Sql (WhereClause)

variable {registry : Registry} {base : Value}

theorem Composes.join_eq {join : Join} {entries : List (Value × Value)} {ids ids' : IdSource}
    {items : List (Item Fragment)} (h : Composes registry base join entries ids items ids') :
    ∀ item ∈ items, item.join = join := by
  induction h with
  | nil => simp
  | leaf hkey hleaf hrest ih => simpa [Item.join] using ih
  | group hkey htrees hinner hrest ihInner ih => simpa [Item.join] using ih

/-- A tree that is joined by AND to a group in which everything is joined by AND narrows it down:
the clauses of the tree come after those of the group, and a row is let through just when it was
before and the tree on its own lets it through, whatever the clauses say of the row.  This holds of
the text of any group of a builder, read under precedence, and of the expression of any group of a
where clause. -/
theorem tree_narrows_guard {path : Path} {tree : Value} {ids ids' : IdSource} :
    (∀ {b b' : Builder}, Item.IsOpen path b.items → Conjoined (Item.itemsAt path b.items) →
      (∀ f ∈ Item.contents (Item.itemsAt path b.items), f.query ≠ "") →
      FilterTree.apply registry base path (.text Join.and.keyword) tree ⟨b, ids⟩ =
        .ok () ⟨b', ids'⟩ →
      ∃ alone : Builder,
        FilterTree.apply registry base [] (.text Join.and.keyword) tree ⟨Builder.empty, ids⟩ =
          .ok () ⟨alone, ids'⟩ ∧ Narrowed path b alone b') ∧
    (∀ {w w' : WhereClause}, Item.IsOpen path w.items → Conjoined (Item.itemsAt path w.items) →
      FilterTree.apply registry base path (.text Join.and.keyword) tree ⟨w, ids⟩ =
        .ok () ⟨w', ids'⟩ →
      ∃ alone : WhereClause,
        FilterTree.apply registry base [] (.text Join.and.keyword) tree ⟨WhereClause.empty, ids⟩ =
          .ok () ⟨alone, ids'⟩ ∧ NarrowedExpression path w alone w') := by
  constructor
  · intro b b' hopen hguard hwritten happly
    obtain ⟨j, entries, items, hjoin, htree, hitems, hbind, hreplay⟩ := apply_eq_ok_iff.mp happly
    obtain rfl : Join.and = j := by simpa [Clause.joinOf_keyword] using hjoin
    obtain ⟨-, rfl⟩ := Builder.replay_eq_ok_iff.mp hreplay
    have halone : replay [] items Builder.empty = .ok () (Builder.empty.extend [] items) :=
      Builder.replay_eq_ok_iff.mpr ⟨hbind, rfl⟩
    exact ⟨Builder.empty.extend [] items,
      apply_eq_ok_iff.mpr ⟨.and, entries, items, hjoin, htree, hitems, hbind, halone⟩,
      .extend hopen hguard hwritten hitems.join_eq hitems.query_ne_empty⟩
  · intro w w' hopen hguard happly
    obtain ⟨j, entries, items, hjoin, htree, hitems, hbind, hreplay⟩ := apply_eq_ok_iff.mp happly
    obtain rfl : Join.and = j := by simpa [Clause.joinOf_keyword] using hjoin
    obtain ⟨new, hbound, hadded⟩ := Clause.replay_whereClause hreplay
    obtain rfl : ⟨Item.extendAt path new w.items⟩ = w' := by
      simpa [hadded path w] using hreplay
    exact ⟨⟨new⟩, apply_eq_ok_iff.mpr
      ⟨.and, entries, items, hjoin, htree, hitems, hbind, hadded [] WhereClause.empty⟩,
      .extend hopen hguard (hbound.join_eq hitems.join_eq)⟩

/-- The tree offers two ways to hold, and no row comes past the guard by either. -/
theorem tree_narrows_guard_or :
    ∃ (tree : Value) (b b' : Builder) (w w' : WhereClause) (ids' : IdSource),
      Conjoined b.items ∧ (∀ f ∈ Item.contents b.items, f.query ≠ "") ∧ Conjoined w.items ∧
      FilterTree.apply Registry.full (.text "e") [] (.text Join.and.keyword) tree
        ⟨b, IdSource.standard⟩ = .ok () ⟨b', ids'⟩ ∧
      FilterTree.apply Registry.full (.text "e") [] (.text Join.and.keyword) tree
        ⟨w, IdSource.standard⟩ = .ok () ⟨w', ids'⟩ ∧
      (b'.build []).query = "e.tenant = :t AND (e.id > :p1_gt_e_id OR e.name IS NULL)" ∧
      b'.filterTruth? (· != 0) [] = some false ∧ filterTruth (· != 0) [] w' = false := by
  obtain ⟨tree, b, b', w, w', ids', hguard, hwritten, hguard', hb, hw, hquery, hfalse, hfalse'⟩ :
      ∃ (tree : Value) (b b' : Builder) (w w' : WhereClause) (ids' : IdSource),
        Conjoined b.items ∧ (∀ f ∈ Item.contents b.items, f.query ≠ "") ∧ Conjoined w.items ∧
        FilterTree.apply Registry.full (.text "e") [] (.text Join.and.keyword) tree
          ⟨b, IdSource.standard⟩ = .ok () ⟨b', ids'⟩ ∧
        FilterTree.apply Registry.full (.text "e") [] (.text Join.and.keyword) tree
          ⟨w, IdSource.standard⟩ = .ok () ⟨w', ids'⟩ ∧
        (b'.build []).query = "e.tenant = :t AND (e.id > :p1_gt_e_id OR e.name IS NULL)" ∧
        b.filterTruth? (· != 0) [] = some false ∧ filterTruth (· != 0) [] w = false := by
    refine ⟨.dict [(.text "$or", .list [.dict [(.text "id", .dict [(.text "$gt", .int 0)])],
      .dict [(.text "name", .text "$isNull")]])], ⟨[.clause .and ⟨"e.tenant = :t", []⟩], []⟩, _,
      ⟨[.clause .and ⟨"e.tenant = :t", []⟩]⟩, _, _, ?_, ?_, ?_, rfl, rfl, by decide, rfl, rfl⟩
    · simp [Conjoined]
    · simp [Item.contents, Item.contentsOf]
    · simp [Conjoined]
  have hopen : Item.IsOpen [] b.items ∧ Item.IsOpen [] w.items := ⟨trivial, trivial⟩
  refine ⟨tree, b, b', w, w', ids', hguard, hwritten, hguard', hb, hw, hquery, ?_, ?_⟩
  · obtain ⟨alone, -, hnarrowed⟩ := tree_narrows_guard.1 hopen.1 hguard hwritten hb
    obtain ⟨before, own, hbefore, -, hafter⟩ := hnarrowed.filterTruth (· != 0)
    obtain rfl : false = before := by simpa [hfalse] using hbefore
    exact hafter
  · obtain ⟨alone, -, hnarrowed⟩ := tree_narrows_guard.2 hopen.2 hguard' hw
    rw [hnarrowed.filterTruth, hfalse', Bool.false_and]

end Criteria.FilterTree
