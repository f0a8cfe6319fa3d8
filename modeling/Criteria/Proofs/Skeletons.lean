import Criteria.Proofs.Wording

/-!
# Trees of one skeleton

The skeleton of a filter tree has its fields, its logical lists and the outlines of its conditions,
but no operands.  Trees of one skeleton that can be composed are rendered as one text, with the same
names bound in the same order.
-/

namespace Criteria

/-- A tree without the operands of its conditions. -/
inductive Skeleton where
  | leaf (field : Value) (outline : Option Outline)
  | group (key : LogicalKey) (trees : List (List Skeleton))

namespace FilterTree

open Clause (Builder Item itemPart itemParts parametersOf)

mutual

/-- The skeletons of entries, in order. -/
def entrySkeletons : List (Value × Value) → List Skeleton
  | [] => []
  | (field, condition) :: rest =>
    match logicalKey? field with
    | some key => .group key (listSkeletons condition) :: entrySkeletons rest
    | none => .leaf field (outline? condition) :: entrySkeletons rest
termination_by structural entries => entries

/-- The skeletons of the trees that a logical value lists. -/
def listSkeletons : Value → List (List Skeleton)
  | .list subtrees => subtreesSkeletons subtrees
  | .tuple subtrees => subtreesSkeletons subtrees
  | _ => []
termination_by structural v => v

/-- The skeletons of several trees. -/
def subtreesSkeletons : List Value → List (List Skeleton)
  | [] => []
  | subtree :: rest => skeleton subtree :: subtreesSkeletons rest
termination_by structural subtrees => subtrees

/-- The skeleton of a tree. -/
def skeleton : Value → List Skeleton
  | .dict entries => entrySkeletons entries
  | _ => []
termination_by structural tree => tree

end

theorem entrySkeletons_append (entries others : List (Value × Value)) :
    entrySkeletons (entries ++ others) = entrySkeletons entries ++ entrySkeletons others := by
  induction entries with
  | nil => rfl
  | cons entry rest ih =>
      obtain ⟨field, condition⟩ := entry
      simp only [List.cons_append, entrySkeletons, ih]
      cases logicalKey? field <;> rfl

theorem entrySkeletons_flatten (trees : List (List (Value × Value))) :
    entrySkeletons trees.flatten = (trees.map entrySkeletons).flatten := by
  induction trees with
  | nil => rfl
  | cons tree trees ih =>
      rw [List.flatten_cons, entrySkeletons_append, ih, List.map_cons, List.flatten_cons]

theorem Lists.listSkeletons {v : Value} {trees : List (List (Value × Value))}
    (h : Lists v trees) : listSkeletons v = trees.map entrySkeletons := by
  have hsubtrees : subtreesSkeletons (trees.map .dict) = trees.map entrySkeletons := by
    clear h
    induction trees with
    | nil => rfl
    | cons tree trees ih => rw [List.map_cons, subtreesSkeletons, ih, skeleton, List.map_cons]
  rcases h with rfl | rfl
  · exact hsubtrees
  · exact hsubtrees

theorem entrySkeletons_leaf {field : Value} (h : logicalKey? field = none) (condition : Value)
    (rest : List (Value × Value)) : entrySkeletons ((field, condition) :: rest) =
      .leaf field (outline? condition) :: entrySkeletons rest := by
  simp [entrySkeletons, h]

theorem entrySkeletons_group {field : Value} {key : LogicalKey} (h : logicalKey? field = some key)
    (condition : Value) (rest : List (Value × Value)) :
    entrySkeletons ((field, condition) :: rest) =
      .group key (listSkeletons condition) :: entrySkeletons rest := by
  simp [entrySkeletons, h]

/-! ## Two compositions -/

variable {registry : Registry} {base : Value}

theorem wording_eq_of_leafFragment {field condition other : Value} {f g : Fragment}
    {ids ids₁ ids₂ : IdSource} (h : outline? condition = outline? other)
    (hf : leafFragment registry base field condition ids = .ok f ids₁)
    (hg : leafFragment registry base field other ids = .ok g ids₂) :
    f.wording = g.wording ∧ ids₁ = ids₂ := by
  obtain ⟨fieldAlias, halias, hcompile⟩ := leafFragment_eq_ok_iff.mp hf
  obtain ⟨otherAlias, halias', hcompile'⟩ := leafFragment_eq_ok_iff.mp hg
  obtain rfl : fieldAlias = otherAlias := Except.ok.inj (halias.symm.trans halias')
  exact wording_eq_of_compileFragment h hcompile hcompile'

/-- The names of the parameters of items. -/
def boundNames (items : List (Item Fragment)) : List String :=
  (parametersOf (Item.contents items)).map (·.1)

theorem boundNames_clause (join : Join) (f : Fragment) (rest : List (Item Fragment)) :
    boundNames (.clause join f :: rest) = f.wording.names ++ boundNames rest := by
  simp [boundNames, parametersOf, Item.contents, Item.contentsOf, Fragment.wording]

theorem boundNames_group (join : Join) (inner rest : List (Item Fragment)) :
    boundNames (.group join inner :: rest) = boundNames inner ++ boundNames rest := by
  simp [boundNames, parametersOf, Item.contents, Item.contentsOf]

/-- Entries of one skeleton compose to items that are rendered alike and have the same names. -/
theorem Composes.parts_eq {join : Join} {entries others : List (Value × Value)}
    {ids ids₁ ids₂ : IdSource} {items items' : List (Item Fragment)}
    (h : Composes registry base join entries ids items ids₁)
    (h' : Composes registry base join others ids items' ids₂)
    (hskeleton : entrySkeletons entries = entrySkeletons others) :
    itemParts items = itemParts items' ∧ boundNames items = boundNames items' ∧ ids₁ = ids₂ := by
  induction h generalizing others items' ids₂ with
  | nil =>
      cases h' with
      | nil => exact ⟨rfl, rfl, rfl⟩
      | leaf hkey hleaf hrest => simp [entrySkeletons, hkey] at hskeleton
      | group hkey htrees hinner hrest => simp [entrySkeletons, hkey] at hskeleton
  | leaf hkey hleaf hrest ih =>
      rw [entrySkeletons_leaf hkey] at hskeleton
      cases h' with
      | nil => simp [entrySkeletons] at hskeleton
      | group hkey' => simp [entrySkeletons_group hkey'] at hskeleton
      | leaf hkey' hleaf' hrest' =>
          rw [entrySkeletons_leaf hkey'] at hskeleton
          obtain ⟨hhead, htail⟩ := List.cons.inj hskeleton
          obtain ⟨rfl, houtline⟩ := Skeleton.leaf.inj hhead
          obtain ⟨hwording, rfl⟩ := wording_eq_of_leafFragment houtline hleaf hleaf'
          have hquery : _ = _ := congrArg Wording.text hwording
          obtain ⟨hparts, hnames, rfl⟩ := ih hrest' htail
          refine ⟨?_, ?_, rfl⟩
          · simp only [Fragment.wording] at hquery
            simp only [itemParts, itemPart, hquery, hparts]
          · rw [boundNames_clause, boundNames_clause, hwording, hnames]
  | group hkey htrees hinner hrest ihInner ih =>
      rw [entrySkeletons_group hkey] at hskeleton
      cases h' with
      | nil => simp [entrySkeletons] at hskeleton
      | leaf hkey' => simp [entrySkeletons_leaf hkey'] at hskeleton
      | group hkey' htrees' hinner' hrest' =>
          rw [entrySkeletons_group hkey'] at hskeleton
          obtain ⟨hhead, htail⟩ := List.cons.inj hskeleton
          obtain ⟨rfl, hlists⟩ := Skeleton.group.inj hhead
          rw [htrees.listSkeletons, htrees'.listSkeletons] at hlists
          have hflat := congrArg List.flatten hlists
          rw [← entrySkeletons_flatten, ← entrySkeletons_flatten] at hflat
          obtain ⟨hinnerParts, hinnerNames, rfl⟩ := ihInner hinner' hflat
          obtain ⟨hparts, hnames, rfl⟩ := ih hrest' htail
          refine ⟨?_, ?_, rfl⟩
          · simp only [itemParts, itemPart, hinnerParts, hparts]
          · rw [boundNames_group, boundNames_group, hinnerNames, hnames]

/-- Operands never reach the text of a query.  Trees of one skeleton that can both be composed on
one alias, with the same identifiers, are rendered as one text and bind the same names in the same
order.  Conditions of one outline that can both be compiled for a target have one wording, which is
the text of a fragment or the template of a raw operator with the names of its parameters. -/
theorem operands_never_reach_text {ids : IdSource} :
    (∀ {join tree other : Value} {b b' : Builder} {ids₁ ids₂ : IdSource},
      skeleton tree = skeleton other →
      FilterTree.apply registry base [] join tree ⟨Builder.empty, ids⟩ = .ok () ⟨b, ids₁⟩ →
      FilterTree.apply registry base [] join other ⟨Builder.empty, ids⟩ = .ok () ⟨b', ids₂⟩ →
      (b.build []).query = (b'.build []).query ∧
        (b.build []).parameters.map (·.1) = (b'.build []).parameters.map (·.1)) ∧
    (∀ {target fieldAlias condition other : Value} {out out' : Compiled} {ids₁ ids₂ : IdSource},
      outline? condition = outline? other →
      compile registry target fieldAlias condition ids = .ok out ids₁ →
      compile registry target fieldAlias other ids = .ok out' ids₂ →
      out.wording? = out'.wording?) := by
  constructor
  · intro join tree other b b' ids₁ ids₂ hskeleton happly happly'
    obtain ⟨j, entries, items, hjoin, rfl, hitems, -, hreplay⟩ := apply_eq_ok_iff.mp happly
    obtain ⟨k, others, items', hjoin', rfl, hitems', -, hreplay'⟩ := apply_eq_ok_iff.mp happly'
    obtain rfl : j = k := Except.ok.inj (hjoin.symm.trans hjoin')
    obtain ⟨-, rfl⟩ := Builder.replay_eq_ok_iff.mp hreplay
    obtain ⟨-, rfl⟩ := Builder.replay_eq_ok_iff.mp hreplay'
    obtain ⟨hparts, hnames, -⟩ := hitems.parts_eq hitems' hskeleton
    constructor
    · exact congrArg (fun parts ↦ Clause.tokensText (Clause.joinParts parts)) hparts
    · exact hnames
  · intro target fieldAlias condition other out out' ids₁ ids₂ houtline hout hout'
    exact wording_eq_of_compile houtline hout hout'

/-- A list of one and a list of three, a text with signs of a template in it, and keys of
documents. -/
theorem operands_never_reach_text_braces :
    ∃ (tree other condition key : Value) (b b' : Builder) (out out' : Compiled)
      (ids₁ ids₂ ids₃ ids₄ : IdSource),
      skeleton tree = skeleton other ∧ outline? condition = outline? key ∧
      FilterTree.apply Registry.full (.text "e") [] (.text "AND") tree
        ⟨Builder.empty, .standard⟩ = .ok () ⟨b, ids₁⟩ ∧
      FilterTree.apply Registry.full (.text "e") [] (.text "AND") other
        ⟨Builder.empty, .standard⟩ = .ok () ⟨b', ids₂⟩ ∧
      compile Registry.full (.text "find") (.text "e.data") condition .standard = .ok out ids₃ ∧
      compile Registry.full (.text "find") (.text "e.data") key .standard = .ok out' ids₄ ∧
      (b.build []).query = "(e.id IN (:...p1_in_e_id) OR e.name = :p2_equalTo_e_name)" ∧
      (b'.build []).query = "(e.id IN (:...p1_in_e_id) OR e.name = :p2_equalTo_e_name)" ∧
      out.wording? = some ⟨"\x7balias\x7d ? :p1_jsonHasKey_e_data_key",
        ["p1_jsonHasKey_e_data_key"]⟩ ∧
      out'.wording? = some ⟨"\x7balias\x7d ? :p1_jsonHasKey_e_data_key",
        ["p1_jsonHasKey_e_data_key"]⟩ := by
  obtain ⟨tree, other, b, b', ids₁, ids₂, hskeleton, happly, happly', hquery⟩ :
      ∃ (tree other : Value) (b b' : Builder) (ids₁ ids₂ : IdSource),
        skeleton tree = skeleton other ∧
        FilterTree.apply Registry.full (.text "e") [] (.text "AND") tree
          ⟨Builder.empty, .standard⟩ = .ok () ⟨b, ids₁⟩ ∧
        FilterTree.apply Registry.full (.text "e") [] (.text "AND") other
          ⟨Builder.empty, .standard⟩ = .ok () ⟨b', ids₂⟩ ∧
        (b.build []).query = "(e.id IN (:...p1_in_e_id) OR e.name = :p2_equalTo_e_name)" :=
    ⟨.dict [(.text "$or", .list [.dict [(.text "id", .list [.int 1]),
        (.text "name", .text "Ann")]])],
      .dict [(.text "$or", .tuple [.dict [(.text "id", .list [.int 2, .int 3, .text "' OR "]),
        (.text "name", .text "\x7balias\x7d :p1")]])], _, _, _, _, rfl, rfl, rfl, by decide⟩
  obtain ⟨condition, key, out, out', ids₃, ids₄, houtline, hout, hout', hwording⟩ :
      ∃ (condition key : Value) (out out' : Compiled) (ids₃ ids₄ : IdSource),
        outline? condition = outline? key ∧
        compile Registry.full (.text "find") (.text "e.data") condition .standard =
          .ok out ids₃ ∧
        compile Registry.full (.text "find") (.text "e.data") key .standard = .ok out' ids₄ ∧
        out.wording? = some ⟨"\x7balias\x7d ? :p1_jsonHasKey_e_data_key",
          ["p1_jsonHasKey_e_data_key"]⟩ :=
    ⟨.dict [(.text "$jsonHasKey", .text "a")], .dict [(.text "$jsonHasKey", .text "\x7b0\x7d")],
      _, _, _, _, rfl, rfl, rfl, rfl⟩
  obtain ⟨htrees, hconditions⟩ := operands_never_reach_text
  refine ⟨tree, other, condition, key, b, b', out, out', ids₁, ids₂, ids₃, ids₄, hskeleton,
    houtline, happly, happly', hout, hout', hquery, ?_, hwording, ?_⟩
  · rw [← (htrees hskeleton happly happly').1, hquery]
  · rw [← hconditions houtline hout hout', hwording]

end FilterTree

end Criteria
