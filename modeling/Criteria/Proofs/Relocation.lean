import Criteria.Proofs.Places

/-!
# Places inside a group and behind other items

A path that goes through a group has a rest inside the group, and what is appended elsewhere leaves
the group alone.  When items are appended to a sequence, the places among them are shifted by the
length that the sequence had before.
-/

namespace Criteria.Clause.Item

variable {α : Type}

/-! ## Inside a group -/

theorem itemsAt_append (path inner : Path) (items : List (Item α)) :
    itemsAt (path ++ inner) items = itemsAt inner (itemsAt path items) := by
  induction path generalizing items with
  | nil => rfl
  | cons i path ih =>
      have hnone : itemsAt inner ([] : List (Item α)) = [] := by cases inner <;> simp [itemsAt]
      simp only [List.cons_append, itemsAt]
      cases items[i]? with
      | none => exact hnone.symm
      | some item =>
          cases item with
          | clause j content => exact hnone.symm
          | group j held => exact ih held

theorem isOpen_append_iff {path inner : Path} {items : List (Item α)} :
    IsOpen (path ++ inner) items ↔ IsOpen path items ∧ IsOpen inner (itemsAt path items) := by
  induction path generalizing items with
  | nil => simp [IsOpen, itemsAt]
  | cons i path ih =>
      simp only [List.cons_append, IsOpen, itemsAt, ih]
      constructor
      · rintro ⟨j, held, hitem, hpath, hinner⟩
        simp only [hitem]
        exact ⟨⟨j, held, rfl, hpath⟩, hinner⟩
      · rintro ⟨⟨j, held, hitem, hpath⟩, hinner⟩
        simp only [hitem] at hinner
        exact ⟨j, held, hitem, hpath, hinner⟩

theorem contents_itemsAt_sublist (path : Path) (items : List (Item α)) :
    (contents (itemsAt path items)).Sublist (contents items) := by
  induction path generalizing items with
  | nil => exact .refl _
  | cons i path ih =>
      rw [itemsAt]
      cases hitem : items[i]? with
      | none => exact List.nil_sublist _
      | some item =>
          cases item with
          | clause j content => exact List.nil_sublist _
          | group j held =>
              refine (ih held).trans ?_
              rw [contents_eq_flatMap items, List.flatMap_def]
              exact List.sublist_flatten_of_mem
                (List.mem_map_of_mem (f := contentsOf) (List.mem_of_getElem? hitem))

/-- The place at which the next group will be opened is free. -/
theorem not_isOpen_length (path : Path) (items : List (Item α)) :
    ¬IsOpen (path ++ [(itemsAt path items).length]) items := by
  rw [isOpen_append_iff]
  rintro ⟨-, j, held, hitem, -⟩
  simp at hitem

theorem modifyAt_append (f : List (Item α) → List (Item α)) (path inner : Path) :
    modifyAt f (path ++ inner) = modifyAt (modifyAt f inner) path := by
  induction path with
  | nil => rfl
  | cons i path ih =>
      funext items
      rw [List.cons_append, modifyAt, modifyAt, ih]

theorem itemsAt_modifyAt {path : Path} {items : List (Item α)} (h : IsOpen path items)
    (f : List (Item α) → List (Item α)) :
    itemsAt path (modifyAt f path items) = f (itemsAt path items) := by
  induction path generalizing items with
  | nil => rfl
  | cons i path ih =>
      obtain ⟨j, held, hitem, hpath⟩ := h
      simp only [modifyAt, itemsAt, List.getElem?_modify_eq, hitem]
      exact ih hpath

theorem itemsAt_extendAt_append {path : Path} {items : List (Item α)} (h : IsOpen path items)
    (inner : Path) (new : List (Item α)) :
    itemsAt path (extendAt (path ++ inner) new items) =
      extendAt inner new (itemsAt path items) := by
  rw [extendAt, modifyAt_append, itemsAt_modifyAt h, extendAt]

/-- What is appended outside a group leaves the group alone, and it opens no group that holds
anything if there are only empty groups in it. -/
theorem itemsAt_extendAt_of_not_prefix {path other : Path} {items new : List (Item α)}
    (hother : ¬path <+: other)
    (h : IsOpen path items ∨ ∀ i inner, itemsAt (i :: inner) new = []) :
    itemsAt path (extendAt other new items) = itemsAt path items := by
  induction path generalizing other items with
  | nil => exact absurd List.nil_prefix hother
  | cons i path ih =>
      cases other with
      | nil =>
          -- The new items stand behind all others, and the place may be one among them.
          rw [extendAt, modifyAt]
          by_cases hi : i < items.length
          · simp only [itemsAt, List.getElem?_append_left hi]
          · have hnone : items[i]? = none := List.getElem?_eq_none (Nat.le_of_not_lt hi)
            have hflat : ∀ k inner, itemsAt (k :: inner) new = [] := by
              refine h.resolve_left ?_
              rintro ⟨j, held, hitem, -⟩
              rw [hnone] at hitem
              cases hitem
            have hnew := hflat (i - items.length) path
            simp only [itemsAt, List.getElem?_append_right (Nat.le_of_not_lt hi), hnone] at hnew ⊢
            exact hnew
      | cons k other =>
          simp only [extendAt, modifyAt, itemsAt]
          by_cases hk : k = i
          · subst hk
            have hrest : ¬path <+: other := fun hprefix ↦
              hother (List.cons_prefix_cons.mpr ⟨rfl, hprefix⟩)
            rw [List.getElem?_modify_eq]
            cases hitem : items[k]? with
            | none => rfl
            | some item =>
                cases item with
                | clause j content => rfl
                | group j held =>
                    refine ih hrest (h.imp_left ?_)
                    rintro ⟨_, _, hheld, hpath⟩
                    rw [hitem] at hheld
                    cases hheld
                    exact hpath
          · rw [List.getElem?_modify_ne _ _ hk]

/-! ## Behind other items -/

/-- Where a path leads once its sequence stands behind as many items at another path. -/
def shift (path : Path) (count : Nat) : Path → Path
  | [] => path
  | i :: inner => path ++ (count + i) :: inner

theorem modifyAt_congr {f g : List (Item α) → List (Item α)} {path : Path}
    {items : List (Item α)} (h : f (itemsAt path items) = g (itemsAt path items)) :
    modifyAt f path items = modifyAt g path items := by
  induction path generalizing items with
  | nil => exact h
  | cons i path ih =>
      apply modify_congr
      intro item hitem
      cases item with
      | clause j content => rfl
      | group j held =>
          refine congrArg (group j) (ih ?_)
          simpa only [itemsAt, hitem] using h

theorem modify_append {γ : Type} (front back : List γ) (f : γ → γ) (i : Nat) :
    (front ++ back).modify (front.length + i) f = front ++ back.modify i f := by
  induction front with
  | nil => simp
  | cons first rest ih => simp [Nat.add_right_comm, ih]

/-- What is appended at a shifted path is appended to the items before they are put in place. -/
theorem extendAt_shift (path inner : Path) (new items base : List (Item α)) :
    extendAt (shift path (itemsAt path base).length inner) new (extendAt path items base) =
      extendAt path (extendAt inner new items) base := by
  cases inner with
  | nil => exact extendAt_extendAt path items new base
  | cons i inner =>
      rw [shift, extendAt, extendAt, modifyAt_append, modifyAt_modifyAt, extendAt]
      apply modifyAt_congr
      exact modify_append (itemsAt path base) items _ i

theorem itemsAt_shift {path : Path} {base : List (Item α)} (h : IsOpen path base) (i : Nat)
    (inner : Path) (items : List (Item α)) :
    itemsAt (shift path (itemsAt path base).length (i :: inner)) (extendAt path items base) =
      itemsAt (i :: inner) items := by
  have hitem : (itemsAt path base ++ items)[(itemsAt path base).length + i]? = items[i]? := by
    rw [List.getElem?_append_right (Nat.le_add_right _ _), Nat.add_sub_cancel_left]
  rw [shift, itemsAt_append, itemsAt_extendAt h]
  simp only [itemsAt, hitem]

theorem openAt_shift {path : Path} {base : List (Item α)} (h : IsOpen path base) (inner : Path)
    (j : Join) (items : List (Item α)) :
    (openAt (shift path (itemsAt path base).length inner) j (extendAt path items base)).1 =
      shift path (itemsAt path base).length (openAt inner j items).1 := by
  cases inner with
  | nil => simp [openAt, shift, itemsAt_extendAt h, itemsAt]
  | cons i inner =>
      have hitems := itemsAt_shift h i inner items
      simp only [openAt, hitems]
      simp [shift]

end Criteria.Clause.Item
