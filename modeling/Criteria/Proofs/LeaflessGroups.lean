import Criteria.Proofs.EvaluationAgreement
import Criteria.Proofs.Pruning
import Criteria.Proofs.Rearrangements
import Criteria.Sql.Select

/-!
# Groups without leaves

A group whose trees have no leaf composes to items without clauses, and it evaluates to no truth
value.  Nothing is read from such items and no join takes notice of such a value, so groups without
leaves can be put into a tree at any place: the clause that it composes to and its evaluation stay
the same.
-/

namespace Criteria.FilterTree

open Clause (Item)

/-- Entries that are logical groups and have no leaf at any depth. -/
inductive Leafless : List (Value × Value) → Prop where
  | nil : Leafless []
  | group {field condition : Value} {key : LogicalKey} {trees : List (List (Value × Value))}
      {rest : List (Value × Value)} (hkey : logicalKey? field = some key)
      (htrees : Lists condition trees) (hinner : Leafless trees.flatten) (hrest : Leafless rest) :
      Leafless ((field, condition) :: rest)

/-- A tree that comes of another by putting groups without leaves into it at any depth, as an entry
of a mapping or as an element of a logical list. -/
inductive Padded : Value → Value → Prop where
  | refl (tree : Value) : Padded tree tree
  | trans {tree middle other : Value} (h : Padded tree middle) (h' : Padded middle other) :
      Padded tree other
  | entry {field condition : Value} (h : Leafless [(field, condition)])
      (before after : List (Value × Value)) :
      Padded (.dict (before ++ after)) (.dict (before ++ (field, condition) :: after))
  | element {field : Value} {key : LogicalKey} (hkey : logicalKey? field = some key)
      {wrap : List Value → Value} (hwrap : IsListing wrap) {entries : List (Value × Value)}
      (h : Leafless entries) (front back : List Value) (before after : List (Value × Value)) :
      Padded (.dict (before ++ (field, wrap (front ++ back)) :: after))
        (.dict (before ++ (field, wrap (front ++ .dict entries :: back)) :: after))
  | inside {field : Value} {key : LogicalKey} (hkey : logicalKey? field = some key)
      {wrap : List Value → Value} (hwrap : IsListing wrap) {subtree other : Value}
      (h : Padded subtree other) (front back : List Value) (before after : List (Value × Value)) :
      Padded (.dict (before ++ (field, wrap (front ++ subtree :: back)) :: after))
        (.dict (before ++ (field, wrap (front ++ other :: back)) :: after))

variable {registry : Registry} {base : Value}

/-! ## What a padded tree composes to -/

theorem IsListing.lists_iff {wrap : List Value → Value} (h : IsListing wrap)
    {subtrees : List Value} {trees : List (List (Value × Value))} :
    Lists (wrap subtrees) trees ↔ subtrees = trees.map .dict := by
  rcases h with rfl | rfl <;> simp [Lists]

theorem composes_append_iff {join : Join} {entries others : List (Value × Value)}
    {ids ids' : IdSource} {items : List (Item Fragment)} :
    Composes registry base join (entries ++ others) ids items ids' ↔
      ∃ first middle second, Composes registry base join entries ids first middle ∧
        Composes registry base join others middle second ids' ∧ items = first ++ second := by
  induction entries generalizing ids items with
  | nil =>
      constructor
      · intro h
        exact ⟨[], ids, items, .nil, h, rfl⟩
      · rintro ⟨_, _, second, ⟨⟩, h, rfl⟩
        exact h
  | cons entry rest ih =>
      constructor
      · intro h
        cases h with
        | leaf hkey hleaf hrest =>
            obtain ⟨first, middle, second, hfirst, hsecond, rfl⟩ := ih.mp hrest
            exact ⟨_, middle, second, .leaf hkey hleaf hfirst, hsecond, rfl⟩
        | group hkey htrees hinner hrest =>
            obtain ⟨first, middle, second, hfirst, hsecond, rfl⟩ := ih.mp hrest
            exact ⟨_, middle, second, .group hkey htrees hinner hfirst, hsecond, rfl⟩
      · rintro ⟨_, middle, second, hfirst, hsecond, rfl⟩
        cases hfirst with
        | leaf hkey hleaf hrest =>
            exact .leaf hkey hleaf (ih.mpr ⟨_, middle, second, hrest, hsecond, rfl⟩)
        | group hkey htrees hinner hrest =>
            exact .group hkey htrees hinner (ih.mpr ⟨_, middle, second, hrest, hsecond, rfl⟩)

variable (registry base) in
/-- Whenever the first entries compose, the others do so with the same identifiers, and the same
clauses are in the same groups. -/
def ComposesAlike (entries others : List (Value × Value)) : Prop :=
  ∀ ⦃join : Join⦄ ⦃ids ids' : IdSource⦄ ⦃items : List (Item Fragment)⦄,
    Composes registry base join entries ids items ids' →
      ∃ items', Composes registry base join others ids items' ids' ∧
        Item.pruned items' = Item.pruned items

namespace ComposesAlike

variable {entries middle others : List (Value × Value)}

theorem trans (h : ComposesAlike registry base entries middle)
    (h' : ComposesAlike registry base middle others) :
    ComposesAlike registry base entries others := by
  intro join ids ids' items hitems
  obtain ⟨held, hheld, hpruned⟩ := h hitems
  obtain ⟨items', hitems', hpruned'⟩ := h' hheld
  exact ⟨items', hitems', hpruned'.trans hpruned⟩

theorem within (h : ComposesAlike registry base entries others)
    (before after : List (Value × Value)) :
    ComposesAlike registry base (before ++ (entries ++ after)) (before ++ (others ++ after)) := by
  intro join ids ids' items hitems
  obtain ⟨first, ids₁, _, hfirst, hrest, rfl⟩ := composes_append_iff.mp hitems
  obtain ⟨second, ids₂, third, hsecond, hthird, rfl⟩ := composes_append_iff.mp hrest
  obtain ⟨second', hsecond', hpruned⟩ := h hsecond
  refine ⟨first ++ (second' ++ third), composes_append_iff.mpr ⟨first, ids₁, _, hfirst,
    composes_append_iff.mpr ⟨second', ids₂, third, hsecond', hthird, rfl⟩, rfl⟩, ?_⟩
  simp only [Item.pruned_append, hpruned]

theorem group {field condition other : Value} {key : LogicalKey}
    (hkey : logicalKey? field = some key)
    (h : ∀ trees, Lists condition trees → ∃ others, Lists other others ∧
      ComposesAlike registry base trees.flatten others.flatten) :
    ComposesAlike registry base [(field, condition)] [(field, other)] := by
  intro join ids ids' items hitems
  cases hitems with
  | leaf hleaf => simp [hkey] at hleaf
  | group hkey' htrees hinner hrest =>
      obtain rfl := Option.some.inj (hkey.symm.trans hkey')
      obtain ⟨others, hothers, halike⟩ := h _ htrees
      obtain ⟨inner', hinner', hpruned⟩ := halike hinner
      refine ⟨_, .group hkey hothers hinner' hrest, ?_⟩
      rw [Item.pruned, Item.pruned, Item.prunedOf_group_congr hpruned]

end ComposesAlike

/-- Entries without leaves draw no identifier, and there is no clause in their items. -/
theorem Leafless.exists_composes {entries : List (Value × Value)} (h : Leafless entries)
    (join : Join) (ids : IdSource) :
    ∃ items, Composes registry base join entries ids items ids ∧ Item.pruned items = [] := by
  induction h generalizing join with
  | nil => exact ⟨[], .nil, rfl⟩
  | @group field condition key trees rest hkey htrees _ _ ihInner ih =>
      obtain ⟨inner, hinner, hnone⟩ := ihInner key.join
      obtain ⟨items, hitems, hpruned⟩ := ih join
      refine ⟨.group join inner :: items, .group hkey htrees hinner hitems, ?_⟩
      rw [Item.pruned, Item.prunedOf_group_of_nil hnone, hpruned]
      rfl

theorem Leafless.composesAlike {extra : List (Value × Value)} (h : Leafless extra) :
    ComposesAlike registry base [] extra := by
  rintro join ids ids' items ⟨⟩
  exact h.exists_composes join ids

theorem Padded.composesAlike {tree other : Value} (h : Padded tree other)
    {entries : List (Value × Value)} (htree : tree = .dict entries) :
    ∃ others, other = .dict others ∧ ComposesAlike registry base entries others := by
  induction h generalizing entries with
  | refl tree => exact ⟨entries, htree, fun join ids ids' items hitems ↦ ⟨items, hitems, rfl⟩⟩
  | trans _ _ ih ih' =>
      obtain ⟨middle, hmiddle, hfirst⟩ := ih htree
      obtain ⟨others, hothers, hsecond⟩ := ih' hmiddle
      exact ⟨others, hothers, hfirst.trans hsecond⟩
  | entry h before after =>
      cases htree
      exact ⟨_, rfl, h.composesAlike.within before after⟩
  | @element field key hkey wrap hwrap extra h front back before after =>
      cases htree
      refine ⟨_, rfl, ComposesAlike.within (.group hkey fun trees htrees ↦ ?_) before after⟩
      obtain ⟨fronts, backs, rfl, rfl, rfl⟩ := List.append_eq_map_iff.mp (hwrap.lists_iff.mp htrees)
      refine ⟨fronts ++ extra :: backs, hwrap.lists_iff.mpr (by simp), ?_⟩
      simpa using h.composesAlike.within fronts.flatten backs.flatten
  | @inside field key hkey wrap hwrap subtree other _ front back before after ih =>
      cases htree
      refine ⟨_, rfl, ComposesAlike.within (.group hkey fun trees htrees ↦ ?_) before after⟩
      obtain ⟨fronts, _, rfl, rfl, hrest⟩ := List.append_eq_map_iff.mp (hwrap.lists_iff.mp htrees)
      obtain ⟨inner, backs, rfl, rfl, rfl⟩ := List.map_eq_cons_iff.mp hrest
      obtain ⟨others, rfl, halike⟩ := ih rfl
      refine ⟨fronts ++ others :: backs, hwrap.lists_iff.mpr (by simp), ?_⟩
      simpa using halike.within fronts.flatten backs.flatten

end Criteria.FilterTree

/-! ## What a padded tree evaluates to -/

namespace Criteria.Memory

open FilterTree (Leafless Padded)

variable {compiler : Criteria.Registry} {r : Registry} {candidate : Candidate}

/-- Entries without leaves leave the truth value before them as it is. -/
theorem evaluateEntries_of_leafless {entries : List (Value × Value)} (h : Leafless entries)
    (join : Join) (before : Option Bool) :
    evaluateEntries compiler r candidate join before entries = .ok before := by
  induction h generalizing join before with
  | nil => rfl
  | @group field condition key trees rest hkey htrees _ _ ihInner ih =>
      rw [evaluateEntries_cons, evaluateEntry_group hkey htrees, ihInner key.join none]
      exact ih join before

theorem evaluateSubtrees_append (key : LogicalKey) (before : Option Bool)
    (subtrees others : List Value) :
    evaluateSubtrees compiler r candidate key before (subtrees ++ others) =
      (evaluateSubtrees compiler r candidate key before subtrees).bind fun middle ↦
        evaluateSubtrees compiler r candidate key middle others := by
  induction subtrees generalizing before with
  | nil => rfl
  | cons subtree rest ih =>
      rw [List.cons_append, evaluateSubtrees_cons, evaluateSubtrees_cons]
      cases evaluateSubtree compiler r candidate key.join subtree with
      | error fault => rfl
      | ok value => exact ih _

/-- Only the value of an entry counts for the mapping that it stands in. -/
theorem evaluateSubtree_congr {field condition other : Value}
    (h : evaluateEntry compiler r candidate field condition =
      evaluateEntry compiler r candidate field other)
    (join : Join) (before after : List (Value × Value)) :
    evaluateSubtree compiler r candidate join (.dict (before ++ (field, condition) :: after)) =
      evaluateSubtree compiler r candidate join (.dict (before ++ (field, other) :: after)) := by
  simp only [evaluateSubtree, evaluateEntries_append, evaluateEntries_cons, h]

theorem evaluateSubtree_padded {tree other : Value} (h : Padded tree other) (join : Join) :
    evaluateSubtree compiler r candidate join tree =
      evaluateSubtree compiler r candidate join other := by
  induction h generalizing join with
  | refl tree => rfl
  | trans _ _ ih ih' => exact (ih join).trans (ih' join)
  | @entry field condition h before after =>
      have hextra : ∀ middle, evaluateEntries compiler r candidate join middle
          ([(field, condition)] ++ after) =
            evaluateEntries compiler r candidate join middle after := by
        intro middle
        rw [evaluateEntries_append, evaluateEntries_of_leafless h]
        rfl
      rw [evaluateSubtree, evaluateSubtree, evaluateEntries_append, evaluateEntries_append]
      exact congrArg (Except.bind _) (funext fun middle ↦ (hextra middle).symm)
  | @element field key hkey wrap hwrap entries h front back before after =>
      apply evaluateSubtree_congr
      have hextra : evaluateSubtree compiler r candidate key.join (.dict entries) = .ok none :=
        evaluateEntries_of_leafless h key.join none
      rw [evaluateEntry_listing hkey hwrap, evaluateEntry_listing hkey hwrap,
        evaluateSubtrees_append, evaluateSubtrees_append]
      simp only [evaluateSubtrees_cons, hextra]
      rfl
  | @inside field key hkey wrap hwrap subtree other _ front back before after ih =>
      apply evaluateSubtree_congr
      rw [evaluateEntry_listing hkey hwrap, evaluateEntry_listing hkey hwrap,
        evaluateSubtrees_append, evaluateSubtrees_append]
      simp only [evaluateSubtrees_cons, ih key.join]

end Criteria.Memory

/-! ## Restricted statements -/

namespace Criteria.Sql.Select

variable {registry : Registry} {tree base : Value} {s s' : Select} {ids ids' : IdSource}

theorem restrictByTree_of_apply {w : WhereClause}
    (h : FilterTree.apply registry base [] (.text Join.and.keyword) tree
      ⟨WhereClause.empty, ids⟩ = .ok () ⟨w, ids'⟩) :
    restrictByTree registry tree base s ids = .ok (((w.build? []).map s.restrict).getD s) ids' := by
  simp only [restrictByTree, h]
  cases w.build? [] <;> rfl

theorem restrictByTree_eq_ok_iff :
    restrictByTree registry tree base s ids = .ok s' ids' ↔
      ∃ w, FilterTree.apply registry base [] (.text Join.and.keyword) tree
          ⟨WhereClause.empty, ids⟩ = .ok () ⟨w, ids'⟩ ∧
        s' = ((w.build? []).map s.restrict).getD s := by
  cases happly : FilterTree.apply registry base [] (.text Join.and.keyword) tree
      ⟨WhereClause.empty, ids⟩ with
  | error fault c => simp [restrictByTree, happly]
  | ok _ c =>
      rw [restrictByTree_of_apply happly]
      constructor
      · rintro ⟨⟩
        exact ⟨c.sink, rfl, rfl⟩
      · rintro ⟨_, ⟨⟩, rfl⟩
        rfl

theorem restrict_ne_self {e : Expression BoundText} (h : e.atoms ≠ []) (s : Select) :
    s.restrict e ≠ s := by
  intro heq
  have hrestriction : (s.restrict e).restriction = s.restriction := by rw [heq]
  rw [restrict] at hrestriction
  cases hold : s.restriction with
  | none => simp [hold] at hrestriction
  | some old =>
      simp only [hold, Option.some.injEq] at hrestriction
      have hatoms : old.atoms ++ e.atoms = old.atoms := by
        have hconjunction := Expression.atoms_conjunction [old, e]
        simpa [hrestriction, Expression.atomsOf] using hconjunction.symm
      exact h (List.append_right_eq_self.mp hatoms)

end Criteria.Sql.Select

namespace Criteria.FilterTree

open Clause (Item Path Builder)
open Sql (WhereClause Select)

variable {registry : Registry} {base : Value}

theorem Padded.apply_builder {tree other : Value} (h : Padded tree other) {path : Path}
    {join : Value} {b b' : Builder} {ids ids' : IdSource}
    (happly : FilterTree.apply registry base path join tree ⟨b, ids⟩ = .ok () ⟨b', ids'⟩) :
    ∃ c, FilterTree.apply registry base path join other ⟨b, ids⟩ = .ok () ⟨c, ids'⟩ ∧
      ∀ place, Item.IsOpen place b.items → c.build place = b'.build place := by
  obtain ⟨j, entries, items, hjoin, rfl, hitems, hnames, hreplay⟩ := apply_eq_ok_iff.mp happly
  obtain ⟨others, rfl, halike⟩ := h.composesAlike rfl
  obtain ⟨items', hitems', hpruned⟩ := halike hitems
  have hcontents := Item.contents_eq_of_pruned_eq hpruned
  obtain ⟨hbind, rfl⟩ := Builder.replay_eq_ok_iff.mp hreplay
  rw [← hcontents] at hnames hbind
  refine ⟨b.extend path items', apply_eq_ok_iff.mpr ⟨j, others, items', hjoin, rfl, hitems', hnames,
    Builder.replay_eq_ok_iff.mpr ⟨hbind, rfl⟩⟩, fun place hopen ↦ ?_⟩
  exact Builder.build_extend_congr hpruned path hopen

theorem Padded.apply_whereClause {tree other : Value} (h : Padded tree other) {path : Path}
    {join : Value} {w w' : WhereClause} {ids ids' : IdSource}
    (happly : FilterTree.apply registry base path join tree ⟨w, ids⟩ = .ok () ⟨w', ids'⟩) :
    ∃ v, FilterTree.apply registry base path join other ⟨w, ids⟩ = .ok () ⟨v, ids'⟩ ∧
      ∀ place, Item.IsOpen place w.items → v.build? place = w'.build? place := by
  obtain ⟨j, entries, items, hjoin, rfl, hitems, hnames, hreplay⟩ := apply_eq_ok_iff.mp happly
  obtain ⟨others, rfl, halike⟩ := h.composesAlike rfl
  obtain ⟨items', hitems', hpruned⟩ := halike hitems
  rw [← Item.contents_eq_of_pruned_eq hpruned] at hnames
  obtain ⟨v, hv, hsame⟩ := Clause.exists_replay_whereClause_of_pruned_eq hreplay hpruned.symm
  exact ⟨v, apply_eq_ok_iff.mpr ⟨j, others, items', hjoin, rfl, hitems', hnames, hv⟩, hsame⟩

/-- A tree makes no expression just when it has no leaf. -/
theorem build?_eq_none_iff_leaves {join tree : Value} {w : WhereClause} {ids ids' : IdSource}
    (h : FilterTree.apply registry base [] join tree ⟨WhereClause.empty, ids⟩ =
      .ok () ⟨w, ids'⟩) : w.build? [] = none ↔ leaves tree = [] := by
  obtain ⟨j, entries, items, -, rfl, hitems, -, hreplay⟩ := apply_eq_ok_iff.mp h
  obtain ⟨new, hnew, hadd⟩ := Clause.replay_whereClause hreplay
  obtain rfl : w = ⟨Item.extendAt [] new WhereClause.empty.items⟩ := by
    simpa [hreplay] using hadd [] WhereClause.empty
  change Sql.Expression.ofItems? new = none ↔ _
  have hlength : (Item.contents new).length = (Item.contents items).length := by
    simpa using (congrArg List.length hnew.map_contents).symm
  rw [Sql.Expression.ofItems?_eq_none_iff, ← List.length_eq_zero_iff, hlength,
    hitems.length_contents, List.length_eq_zero_iff]
  rfl

theorem restrictByTree_eq_self_iff {tree : Value} {s s' : Select} {ids ids' : IdSource}
    (h : Select.restrictByTree registry tree base s ids = .ok s' ids') :
    s' = s ↔ leaves tree = [] := by
  obtain ⟨w, happly, rfl⟩ := Select.restrictByTree_eq_ok_iff.mp h
  rw [← build?_eq_none_iff_leaves happly]
  cases hbuild : w.build? [] with
  | none => simp
  | some e =>
      have hatoms : e.atoms ≠ [] := by
        intro hnone
        have hitems : Sql.Expression.ofItems? (Item.itemsAt [] w.items) = none := by
          rw [Sql.Expression.ofItems?_eq_none_iff, ← Sql.Expression.atoms_ofItems?]
          change ((w.build? []).map Sql.Expression.atoms).getD [] = []
          rw [hbuild]
          exact hnone
        exact nomatch hitems.symm.trans hbuild
      simpa using Select.restrict_ne_self hatoms s

/-- Groups without leaves are neutral.  When a tree reaches a builder or a where clause, the tree
with such groups in it does so with the same identifiers, and then every group that was open before
has the same text, parameters and expression.  Both trees evaluate to the same on every candidate.
A statement that they restrict is restricted to the same, and it stays as it is just when the tree
has no leaf. -/
theorem leafless_groups_are_neutral {tree other : Value} (h : Padded tree other)
    (registry : Registry) (base : Value) :
    (∀ {path : Path} {join : Value} {b b' : Builder} {ids ids' : IdSource},
      FilterTree.apply registry base path join tree ⟨b, ids⟩ = .ok () ⟨b', ids'⟩ →
      ∃ c, FilterTree.apply registry base path join other ⟨b, ids⟩ = .ok () ⟨c, ids'⟩ ∧
        ∀ place, Item.IsOpen place b.items → c.build place = b'.build place) ∧
    (∀ {path : Path} {join : Value} {w w' : WhereClause} {ids ids' : IdSource},
      FilterTree.apply registry base path join tree ⟨w, ids⟩ = .ok () ⟨w', ids'⟩ →
      ∃ v, FilterTree.apply registry base path join other ⟨w, ids⟩ = .ok () ⟨v, ids'⟩ ∧
        ∀ place, Item.IsOpen place w.items → v.build? place = w'.build? place) ∧
    (∀ (compiler : Registry) (r : Memory.Registry) (candidate : Memory.Candidate),
      Memory.isSatisfiedBy compiler r candidate other =
        Memory.isSatisfiedBy compiler r candidate tree) ∧
    ∀ {s s' : Select} {ids ids' : IdSource},
      Select.restrictByTree registry tree base s ids = .ok s' ids' →
      Select.restrictByTree registry other base s ids = .ok s' ids' ∧
        (s' = s ↔ leaves tree = []) := by
  refine ⟨h.apply_builder, h.apply_whereClause, fun compiler r candidate ↦ ?_, ?_⟩
  · rw [Memory.isSatisfiedBy, Memory.isSatisfiedBy, Memory.evaluateSubtree_padded h]
  · intro s s' ids ids' hrestrict
    obtain ⟨w, happly, hs'⟩ := Select.restrictByTree_eq_ok_iff.mp hrestrict
    obtain ⟨v, happly', hsame⟩ := h.apply_whereClause happly
    have hbuild : v.build? [] = w.build? [] := hsame [] trivial
    refine ⟨Select.restrictByTree_eq_ok_iff.mpr ⟨v, happly', ?_⟩,
      restrictByTree_eq_self_iff hrestrict⟩
    rw [hs', hbuild]

/-- An entry without leaves in front of a group, and a mapping without leaves in front of its first
tree. -/
theorem leafless_groups_are_neutral_leading :
    ∃ (tree other : Value) (c : Builder) (ids' : IdSource),
      tree = .dict [(.text "$or", .list [.dict [(.text "a", .int 1)],
        .dict [(.text "b", .int 2)]])] ∧
      other = .dict [(.text "$and", .list []), (.text "$or", .list [.dict [(.text "$or",
        .tuple [.dict []])], .dict [(.text "a", .int 1)], .dict [(.text "b", .int 2)]])] ∧
      Padded tree other ∧
      FilterTree.apply Registry.full (.text "e") [] (.text Join.and.keyword) other
        ⟨Builder.empty, .sequence "p" 1⟩ = .ok () ⟨c, ids'⟩ ∧
      (c.build []).query = "(e.a = :p1_equalTo_e_a OR e.b = :p2_equalTo_e_b)" := by
  have hand : logicalKey? (.text "$and") = some .and := rfl
  have hor : logicalKey? (.text "$or") = some .or := rfl
  have hpadded : Padded
      (.dict [(.text "$or", .list [.dict [(.text "a", .int 1)], .dict [(.text "b", .int 2)]])])
      (.dict [(.text "$and", .list []), (.text "$or", .list [.dict [(.text "$or",
        .tuple [.dict []])], .dict [(.text "a", .int 1)], .dict [(.text "b", .int 2)]])]) := by
    have hnested : Leafless [(.text "$or", .tuple [.dict []])] := by
      have htrees : Lists (.tuple [.dict []]) [[]] := Or.inr rfl
      exact .group hor htrees .nil .nil
    have hempty : Leafless [(.text "$and", .list [])] := by
      have htrees : Lists (.list []) [] := Or.inl rfl
      exact .group hand htrees .nil .nil
    exact .trans (.element hor (Or.inl rfl) hnested [] [_, _] [] []) (.entry hempty [] [_])
  obtain ⟨b, ids', hrun, hquery⟩ : ∃ (b : Builder) (ids' : IdSource),
      FilterTree.apply Registry.full (.text "e") [] (.text Join.and.keyword)
        (.dict [(.text "$or", .list [.dict [(.text "a", .int 1)], .dict [(.text "b", .int 2)]])])
        ⟨Builder.empty, .sequence "p" 1⟩ = .ok () ⟨b, ids'⟩ ∧
      (b.build []).query = "(e.a = :p1_equalTo_e_a OR e.b = :p2_equalTo_e_b)" :=
    ⟨_, _, rfl, by decide⟩
  obtain ⟨c, hpad, hsame⟩ := (leafless_groups_are_neutral hpadded Registry.full (.text "e")).1 hrun
  have hroot : c.build [] = b.build [] := hsame [] trivial
  exact ⟨_, _, c, ids', rfl, rfl, hpadded, hpad, by rw [hroot, hquery]⟩

end Criteria.FilterTree
