import Criteria.Clause.Item

/-!
# Items at places

A path leads to a group, and a change at a path is a change of the items of that group.  What is
appended piece by piece at a path, groups opened on the way included, is appended at once.  A path
at which no group is open changes nothing.
-/

namespace Criteria.Clause.Item

variable {α β : Type}

/-- Induction on a sequence of items and into the groups of it. -/
theorem sequence_induction {motive : List (Item α) → Prop} (nil : motive [])
    (clause : ∀ j content rest, motive rest → motive (.clause j content :: rest))
    (group : ∀ j inner rest, motive inner → motive rest → motive (.group j inner :: rest))
    (items : List (Item α)) : motive items := by
  match items with
  | [] => exact nil
  | .clause j content :: rest =>
      exact clause j content rest (sequence_induction nil clause group rest)
  | .group j inner :: rest =>
      exact group j inner rest (sequence_induction nil clause group inner)
        (sequence_induction nil clause group rest)

/-! ## Contents -/

mutual

/-- The contents of the clauses in an item. -/
def contentsOf : Item α → List α
  | clause _ content => [content]
  | group _ items => contents items
termination_by structural item => item

/-- The contents of the clauses of a sequence at whatever depth, from the left. -/
def contents : List (Item α) → List α
  | [] => []
  | item :: rest => contentsOf item ++ contents rest
termination_by structural items => items

end

@[simp] theorem contents_append (items others : List (Item α)) :
    contents (items ++ others) = contents items ++ contents others := by
  induction items with
  | nil => rfl
  | cons item rest ih => simp only [List.cons_append, contents, ih, List.append_assoc]

theorem contents_eq_flatMap (items : List (Item α)) :
    contents items = items.flatMap contentsOf := by
  induction items with
  | nil => rfl
  | cons item rest ih => rw [contents, ih, List.flatMap_cons]

mutual

/-- An item with its contents replaced. -/
def relabelOf (f : α → β) : Item α → Item β
  | clause j content => clause j (f content)
  | group j items => group j (relabel f items)
termination_by structural item => item

/-- A sequence with its contents replaced, which leaves the joins and the nesting alone. -/
def relabel (f : α → β) : List (Item α) → List (Item β)
  | [] => []
  | item :: rest => relabelOf f item :: relabel f rest
termination_by structural items => items

end

theorem relabel_eq_map (f : α → β) (items : List (Item α)) :
    relabel f items = items.map (relabelOf f) := by
  induction items with
  | nil => rfl
  | cons item rest ih => rw [relabel, ih, List.map_cons]

@[simp] theorem relabel_append (f : α → β) (items others : List (Item α)) :
    relabel f (items ++ others) = relabel f items ++ relabel f others := by
  simp [relabel_eq_map]

@[simp] theorem join_relabelOf (f : α → β) (item : Item α) :
    (relabelOf f item).join = item.join := by
  cases item <;> rfl

theorem contents_relabel (f : α → β) (items : List (Item α)) :
    contents (relabel f items) = (contents items).map f := by
  induction items using sequence_induction with
  | nil => rfl
  | clause j content rest ih =>
      rw [relabel, relabelOf, contents, contents, ih, List.map_append]
      rfl
  | group j inner rest ihInner ih =>
      rw [relabel, relabelOf, contents, contents, contentsOf, contentsOf, ihInner, ih,
        List.map_append]

theorem relabel_injective {f : α → β} (hf : f.Injective) : (relabel f).Injective := by
  intro items
  induction items using sequence_induction with
  | nil =>
      rintro (_ | ⟨item, others⟩) h
      · rfl
      · cases h
  | clause j content rest ih =>
      rintro (_ | ⟨_ | _, others⟩) h
      · cases h
      · simp only [relabel, relabelOf, List.cons.injEq, clause.injEq] at h
        obtain ⟨⟨hjoin, hcontent⟩, hrest⟩ := h
        rw [hjoin, hf hcontent, ih hrest]
      · simp [relabel, relabelOf] at h
  | group j inner rest ihInner ih =>
      rintro (_ | ⟨_ | _, others⟩) h
      · cases h
      · simp [relabel, relabelOf] at h
      · simp only [relabel, relabelOf, List.cons.injEq, group.injEq] at h
        obtain ⟨⟨hjoin, hinner⟩, hrest⟩ := h
        rw [hjoin, ihInner hinner, ih hrest]

theorem length_eq_of_relabel_eq {γ : Type} {f : α → γ} {g : β → γ} {items : List (Item α)}
    {others : List (Item β)} (h : relabel f items = relabel g others) :
    items.length = others.length := by
  simpa [relabel_eq_map] using congrArg List.length h

/-! ## Changes at a path -/

/-- An item with the sequence in it changed, if it is a group. -/
def inGroup (f : List (Item α) → List (Item α)) : Item α → Item α
  | group j inner => group j (f inner)
  | clause j content => clause j content

/-- The items with the sequence of the group at a path changed. -/
def modifyAt (f : List (Item α) → List (Item α)) : Path → List (Item α) → List (Item α)
  | [], items => f items
  | i :: path, items => items.modify i (inGroup (modifyAt f path))

/-- The items with others at the end of the group at a path. -/
def extendAt (path : Path) (new items : List (Item α)) : List (Item α) :=
  modifyAt (· ++ new) path items

/-- Whether a group is open at a path. -/
def IsOpen : Path → List (Item α) → Prop
  | [], _ => True
  | i :: path, items => ∃ j inner, items[i]? = some (group j inner) ∧ IsOpen path inner

theorem modify_congr {γ : Type} {l : List γ} {i : Nat} {f g : γ → γ}
    (h : ∀ a, l[i]? = some a → f a = g a) : l.modify i f = l.modify i g := by
  apply List.ext_getElem?
  intro k
  rw [List.getElem?_modify, List.getElem?_modify]
  by_cases hk : i = k
  · subst hk
    cases ha : l[i]? with
    | none => rfl
    | some a => simp [h a ha]
  · simp [hk]

theorem appendAt_eq_extendAt (path : Path) (new : Item α) (items : List (Item α)) :
    appendAt path new items = extendAt path [new] items := by
  induction path generalizing items with
  | nil => rfl
  | cons i path ih =>
      apply modify_congr
      intro item _
      cases item with
      | clause j content => rfl
      | group j inner => exact congrArg (group j) (ih inner)

theorem modifyAt_modifyAt (f g : List (Item α) → List (Item α)) (path : Path)
    (items : List (Item α)) :
    modifyAt g path (modifyAt f path items) = modifyAt (g ∘ f) path items := by
  induction path generalizing items with
  | nil => rfl
  | cons i path ih =>
      rw [modifyAt, modifyAt, List.modify_modify_eq]
      apply modify_congr
      intro item _
      cases item with
      | clause j content => rfl
      | group j inner => exact congrArg (group j) (ih inner)

theorem extendAt_extendAt (path : Path) (new newer items : List (Item α)) :
    extendAt path newer (extendAt path new items) = extendAt path (new ++ newer) items := by
  rw [extendAt, extendAt, modifyAt_modifyAt, extendAt]
  congr 1
  funext inner
  simp

theorem extendAt_nil (path : Path) (items : List (Item α)) : extendAt path [] items = items := by
  induction path generalizing items with
  | nil => simp [extendAt, modifyAt]
  | cons i path ih =>
      have hid : ∀ item, items[i]? = some item →
          inGroup (modifyAt (· ++ []) path) item = id item := by
        intro item _
        cases item with
        | clause j content => rfl
        | group j inner => exact congrArg (group j) (ih inner)
      rw [extendAt, modifyAt, modify_congr hid, List.modify_id]

/-- A change in a group that has just been appended at a path is a change of what is appended.  The
path may lead to no group, and then both sides leave the items alone. -/
theorem modifyAt_appended (f : List (Item α) → List (Item α)) (path : Path) (j : Join)
    (inner items : List (Item α)) :
    modifyAt f (path ++ [(itemsAt path items).length]) (extendAt path [group j inner] items) =
      extendAt path [group j (f inner)] items := by
  induction path generalizing items with
  | nil =>
      have hlast : ∀ others : List (Item α), (others ++ [group j inner]).modify others.length
          (inGroup f) = others ++ [group j (f inner)] := by
        intro others
        induction others with
        | nil => rfl
        | cons item rest ih => simp [ih]
      exact hlast items
  | cons i path ih =>
      rw [extendAt, modifyAt, List.cons_append, modifyAt, List.modify_modify_eq, extendAt, modifyAt]
      apply modify_congr
      intro item hitem
      cases item with
      | clause j content => rfl
      | group k held =>
          have hlen : itemsAt (i :: path) items = itemsAt path held := by
            simp [itemsAt, hitem]
          rw [hlen]
          exact congrArg (group k) (ih held)

theorem extendAt_openAt (path : Path) (j : Join) (new items : List (Item α)) :
    extendAt (openAt path j items).1 new (openAt path j items).2 =
      extendAt path [group j new] items := by
  simp only [openAt, appendAt_eq_extendAt]
  exact modifyAt_appended (· ++ new) path j [] items

theorem itemsAt_extendAt {path : Path} {items : List (Item α)} (h : IsOpen path items)
    (new : List (Item α)) : itemsAt path (extendAt path new items) = itemsAt path items ++ new := by
  induction path generalizing items with
  | nil => rfl
  | cons i path ih =>
      obtain ⟨j, inner, hitem, hinner⟩ := h
      have hmodified : (extendAt (i :: path) new items)[i]? =
          some (group j (extendAt path new inner)) := by
        simp [extendAt, modifyAt, hitem, inGroup]
      simp only [itemsAt, hmodified, hitem]
      exact ih hinner

/-! ## Contents at a path -/

theorem mem_contents_extendAt {path : Path} {new items : List (Item α)} {content : α}
    (h : content ∈ contents (extendAt path new items)) :
    content ∈ contents items ∨ content ∈ contents new := by
  induction path generalizing items with
  | nil => simpa [extendAt, modifyAt] using h
  | cons i path ih =>
      rw [contents_eq_flatMap, List.mem_flatMap] at h
      obtain ⟨item, hitem, hcontent⟩ := h
      obtain ⟨k, hk⟩ := List.mem_iff_getElem?.mp hitem
      rw [extendAt, modifyAt, List.getElem?_modify] at hk
      obtain ⟨old, hold, rfl⟩ := Option.map_eq_some_iff.mp hk
      have hmem : ∀ c ∈ contentsOf old, c ∈ contents items := fun c hc ↦ by
        rw [contents_eq_flatMap]
        exact List.mem_flatMap.mpr ⟨old, List.mem_of_getElem? hold, hc⟩
      by_cases hi : i = k
      · rw [if_pos hi] at hcontent
        cases old with
        | clause j c => exact Or.inl (hmem content hcontent)
        | group j inner =>
            rcases ih hcontent with hinner | hnew
            · exact Or.inl (hmem content hinner)
            · exact Or.inr hnew
      · rw [if_neg hi] at hcontent
        exact Or.inl (hmem content hcontent)

theorem mem_contents_itemsAt {path : Path} {items : List (Item α)} {content : α}
    (h : content ∈ contents (itemsAt path items)) : content ∈ contents items := by
  induction path generalizing items with
  | nil => exact h
  | cons i path ih =>
      simp only [itemsAt] at h
      cases hitem : items[i]? with
      | none => simp [hitem, contents] at h
      | some item =>
          cases item with
          | clause j c => simp [hitem, contents] at h
          | group j inner =>
              simp only [hitem] at h
              rw [contents_eq_flatMap]
              exact List.mem_flatMap.mpr ⟨_, List.mem_of_getElem? hitem, ih h⟩

/-- Items added to a group that is open are in the sequence, together with those before. -/
theorem contents_extendAt_perm {path : Path} {items : List (Item α)} (h : IsOpen path items)
    (new : List (Item α)) :
    (contents (extendAt path new items)).Perm (contents items ++ contents new) := by
  induction path generalizing items with
  | nil => simp [extendAt, modifyAt]
  | cons i path ih =>
      obtain ⟨j, inner, hitem, hinner⟩ := h
      obtain ⟨hi, hget⟩ := List.getElem?_eq_some_iff.mp hitem
      have hsplit : items = items.take i ++ group j inner :: items.drop (i + 1) := by
        rw [← hget, List.getElem_cons_drop, List.take_append_drop]
      have hextended : contents (extendAt (i :: path) new items) = contents (items.take i) ++
          (contents (extendAt path new inner) ++ contents (items.drop (i + 1))) := by
        rw [extendAt, modifyAt, List.modify_eq_take_cons_drop hi, hget, contents_append]
        rfl
      have hcontents : contents items = contents (items.take i) ++
          (contents inner ++ contents (items.drop (i + 1))) :=
        (congrArg contents hsplit).trans (contents_append _ _)
      have hswap : (contents new ++ contents (items.drop (i + 1))).Perm
          (contents (items.drop (i + 1)) ++ contents new) := List.perm_append_comm
      rw [hextended, hcontents]
      refine ((ih hinner).append_right _).append_left _ |>.trans ?_
      simp only [List.append_assoc]
      exact (hswap.append_left _).append_left _

/-! ## Open groups -/

theorem IsOpen.extendAt {path : Path} {items : List (Item α)} (h : IsOpen path items)
    (other : Path) (new : List (Item α)) : IsOpen path (Item.extendAt other new items) := by
  induction path generalizing other items with
  | nil => trivial
  | cons i path ih =>
      obtain ⟨j, inner, hitem, hinner⟩ := h
      cases other with
      | nil =>
          have hold : (Item.extendAt [] new items)[i]? = some (group j inner) := by
            obtain ⟨hi, -⟩ := List.getElem?_eq_some_iff.mp hitem
            rw [Item.extendAt, modifyAt, List.getElem?_append_left hi, hitem]
          exact ⟨j, inner, hold, hinner⟩
      | cons k other =>
          rw [Item.extendAt, modifyAt]
          by_cases hk : k = i
          · subst hk
            refine ⟨j, Item.extendAt other new inner, ?_, ih hinner other⟩
            rw [List.getElem?_modify_eq, hitem]
            rfl
          · refine ⟨j, inner, ?_, hinner⟩
            simpa [List.getElem?_modify, hk] using hitem

theorem isOpen_openAt {path : Path} {items : List (Item α)} (h : IsOpen path items) (j : Join) :
    IsOpen (openAt path j items).1 (openAt path j items).2 := by
  rw [openAt, appendAt_eq_extendAt]
  induction path generalizing items with
  | nil => exact ⟨j, [], by simp [Item.extendAt, modifyAt, itemsAt], trivial⟩
  | cons i path ih =>
      obtain ⟨k, inner, hitem, hinner⟩ := h
      have hlength : itemsAt (i :: path) items = itemsAt path inner := by
        simp [itemsAt, hitem]
      refine ⟨k, Item.extendAt path [group j []] inner, ?_, ?_⟩
      · rw [Item.extendAt, modifyAt, List.getElem?_modify_eq, hitem]
        rfl
      · rw [hlength]
        exact ih hinner

/-! ## Replaced contents at a path -/

theorem relabel_itemsAt (f : α → β) (path : Path) (items : List (Item α)) :
    relabel f (itemsAt path items) = itemsAt path (relabel f items) := by
  induction path generalizing items with
  | nil => rfl
  | cons i path ih =>
      have hget : (relabel f items)[i]? = items[i]?.map (relabelOf f) := by
        rw [relabel_eq_map, List.getElem?_map]
      simp only [itemsAt, hget]
      cases items[i]? with
      | none => rfl
      | some item =>
          cases item with
          | clause j content => rfl
          | group j inner => exact ih inner

theorem relabel_extendAt (f : α → β) (path : Path) (new items : List (Item α)) :
    relabel f (extendAt path new items) = extendAt path (relabel f new) (relabel f items) := by
  induction path generalizing items with
  | nil => exact relabel_append f items new
  | cons i path ih =>
      have hcomm : ∀ item : Item α, relabelOf f (inGroup (modifyAt (· ++ new) path) item) =
          inGroup (modifyAt (· ++ relabel f new) path) (relabelOf f item) := by
        intro item
        cases item with
        | clause j content => rfl
        | group j inner => exact congrArg (group j) (ih inner)
      apply List.ext_getElem?
      intro k
      simp only [extendAt, modifyAt, relabel_eq_map, List.getElem?_map, List.getElem?_modify]
      rw [← relabel_eq_map]
      cases items[k]? with
      | none => rfl
      | some item =>
          by_cases hk : i = k
          · simp [hk, hcomm]
          · simp [hk]

theorem relabel_openAt (f : α → β) (path : Path) (j : Join) (items : List (Item α)) :
    relabel f (openAt path j items).2 = extendAt path [group j []] (relabel f items) := by
  rw [openAt, appendAt_eq_extendAt, relabel_extendAt]
  rfl

theorem openAt_fst_eq_of_relabel_eq {γ : Type} {f : α → γ} {g : β → γ} {items : List (Item α)}
    {others : List (Item β)} (h : relabel f items = relabel g others) (path : Path) (j : Join) :
    (openAt path j items).1 = (openAt path j others).1 := by
  have hlength : (itemsAt path items).length = (itemsAt path others).length := by
    apply length_eq_of_relabel_eq
    rw [relabel_itemsAt, relabel_itemsAt, h]
  rw [openAt, openAt, hlength]

end Criteria.Clause.Item
