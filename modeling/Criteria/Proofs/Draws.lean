import Criteria.Proofs.BoundNames
import Criteria.Proofs.Rejections

/-!
# Calls that draw identifiers

A call compiles one condition.  It draws at most one identifier, which all its parameters are named
by.  As long as no name begins with two of the identifiers, calls that are made one after the other
have no name in common, so binding their parameters fails only where a call itself fails.
-/

namespace Criteria

open Clause (Builder Bindable parametersOf)

/-- No name begins with both of two identifiers. -/
def AreSeparate (id other : String) : Prop := ∀ name, NamedBy id name → ¬NamedBy other name

/-- A call that names its parameters by the one identifier that it draws, if any. -/
structure DrawsOne (call : Compiling Fragment) : Prop where
  ok : ∀ {ids ids' : IdSource} {f : Fragment}, call ids = .ok f ids' →
    ids' = ids ∧ f.parameters = [] ∨
      ids' = ids.advance ∧ ∀ p ∈ f.parameters, NamedBy ids.current p.1
  error : ∀ {ids ids' : IdSource} {fault : Fault}, call ids = .error fault ids' →
    fault.IsElementary ∧ (ids' = ids ∨ ids' = ids.advance)

theorem Admitted.idsAfter_eq_or (a : Admitted) (ids : IdSource) :
    a.idsAfter ids = ids ∨ a.idsAfter ids = ids.advance := by
  cases a with
  | nullCheck negated => exact Or.inl rfl
  | criterion o c => exact Or.inr rfl

theorem drawsOne_throw {fault : Fault} (h : fault.IsElementary) : DrawsOne (throw fault) where
  ok := nofun
  error := by
    rintro ids ids' other ⟨⟩
    exact ⟨h, Or.inl rfl⟩

theorem drawsOne_compileFragment (registry : Registry) (fieldAlias condition : Value) :
    DrawsOne (compileFragment registry fieldAlias condition) where
  ok := by
    intro ids ids' f h
    obtain ⟨-, a, -, hfragment, rfl⟩ := compileFragment_eq_ok_iff.mp h
    cases a with
    | nullCheck negated =>
        cases hfragment
        exact Or.inl ⟨rfl, rfl⟩
    | criterion o c =>
        exact Or.inr ⟨rfl, fun p hp ↦ (Admitted.namedBy_of_mem_parameters hfragment p hp).2⟩
  error := by
    intro ids ids' fault h
    refine ⟨isElementary_of_compileFragment h, ?_⟩
    rcases compileFragment_eq_error_iff.mp h with
      ⟨-, -, -, hids⟩ | ⟨-, ⟨-, -, -, hids⟩ | ⟨a, -, -, hids⟩⟩
    · exact Or.inl hids
    · exact Or.inl hids
    · exact hids ▸ a.idsAfter_eq_or ids

namespace FilterTree

theorem isElementary_of_resolveAlias {field base : Value} {fault : Fault}
    (h : resolveAlias field base = .error fault) : fault.IsElementary := by
  have hitems : ∀ items, itemsAlias field base items = .error fault → fault.IsElementary := by
    intro items hitems
    rw [itemsAlias] at hitems
    split at hitems
    · obtain rfl := Except.error.inj hitems
      trivial
    · split at hitems
      · cases hitems
      · obtain rfl := Except.error.inj hitems
        trivial
  cases field with
  | text s => cases h
  | list items => exact hitems items h
  | tuple items => exact hitems items h
  | set items => exact hitems items h
  | dict entries => exact hitems _ h
  | _ =>
      obtain rfl := Except.error.inj h
      trivial

theorem drawsOne_leafFragment (registry : Registry) (base field condition : Value) :
    DrawsOne (leafFragment registry base field condition) := by
  cases halias : resolveAlias field base with
  | error fault =>
      rw [leafFragment_of_resolveAlias_error halias]
      exact drawsOne_throw (isElementary_of_resolveAlias halias)
  | ok fieldAlias =>
      rw [leafFragment_of_resolveAlias halias]
      exact drawsOne_compileFragment registry _ condition

end FilterTree

/-! ## Names that are not used up -/

theorem IdSource.take_sublist {m n : Nat} (h : m ≤ n) (ids : IdSource) :
    (ids.take m).Sublist (ids.take n) := by
  induction m generalizing n ids with
  | zero => exact List.nil_sublist _
  | succ m ih =>
      obtain _ | n := n
      · omega
      · have hrest : (ids.advance.take m).Sublist (ids.advance.take n) := ih (by omega) ids.advance
        exact hrest.cons_cons ids.current

/-- The next identifiers are separate from each other and from those that the bound names begin
with. -/
structure IsUnused (bound : Parameters) (count : Nat) (ids : IdSource) : Prop where
  separate : (ids.take count).Pairwise AreSeparate
  bound : ∀ p ∈ bound, ∃ id, NamedBy id p.1 ∧ ∀ other ∈ ids.take count, AreSeparate id other

namespace IsUnused

variable {bound : Parameters} {count : Nat} {ids ids' : IdSource} {call : Compiling Fragment}
  {f : Fragment}

theorem binds_eq_false (h : IsUnused bound (count + 1) ids) (hcall : DrawsOne call)
    (hok : call ids = .ok f ids') : ∀ p ∈ f.parameters, bound.binds p.1 = false := by
  intro p hp
  rcases hcall.ok hok with ⟨-, hnil⟩ | ⟨-, hnames⟩
  · rw [hnil] at hp
    cases hp
  · apply List.any_eq_false.mpr
    intro q hq hsame
    obtain ⟨id, hid, hseparate⟩ := h.bound q hq
    have heq : q.1 = p.1 := by simpa using hsame
    exact hseparate ids.current List.mem_cons_self p.1 (heq ▸ hid) (hnames p hp)

theorem take_subset (hcall : DrawsOne call) (hok : call ids = .ok f ids') :
    ∀ id ∈ ids'.take count, id ∈ ids.take (count + 1) := by
  rcases hcall.ok hok with ⟨rfl, -⟩ | ⟨rfl, -⟩
  · exact fun id hid ↦ (IdSource.take_sublist (Nat.le_succ count) _).subset hid
  · exact fun id hid ↦ List.mem_cons_of_mem _ hid

theorem next (h : IsUnused bound (count + 1) ids) (hcall : DrawsOne call)
    (hok : call ids = .ok f ids') : IsUnused (bound ++ f.parameters) count ids' := by
  have hsubset : ∀ id ∈ ids'.take count, id ∈ ids.take (count + 1) := take_subset hcall hok
  rcases hcall.ok hok with ⟨rfl, hnil⟩ | ⟨rfl, hnames⟩
  · rw [hnil, List.append_nil]
    refine ⟨h.separate.sublist (IdSource.take_sublist (Nat.le_succ count) _), fun p hp ↦ ?_⟩
    obtain ⟨id, hid, hseparate⟩ := h.bound p hp
    exact ⟨id, hid, fun other hother ↦ hseparate other (hsubset other hother)⟩
  · obtain ⟨hcurrent, hrest⟩ := List.pairwise_cons.mp h.separate
    refine ⟨hrest, fun p hp ↦ ?_⟩
    rcases List.mem_append.mp hp with hold | hnew
    · obtain ⟨id, hid, hseparate⟩ := h.bound p hold
      exact ⟨id, hid, fun other hother ↦ hseparate other (hsubset other hother)⟩
    · exact ⟨ids.current, hnames p hnew, hcurrent⟩

end IsUnused

/-! ## Calls one after the other -/

namespace FilterTree

theorem bindNames_of_binds_eq_false {bound parameters : Parameters}
    (h : ∀ p ∈ parameters, bound.binds p.1 = false) :
    bindNames parameters bound = .ok () (bound ++ parameters) := by
  have hnone : (Builder.mk [] bound).conflict? parameters = none :=
    Builder.conflict?_eq_none_iff.mpr h
  simp only [bindNames, Builder.bind, hnone]

theorem bindFragment_eq_ok {report : Fault → Fault} {call : Compiling Fragment} {f : Fragment}
    {bound : Parameters} {ids ids' : IdSource} (hcall : call ids = .ok f ids')
    (hbound : ∀ p ∈ f.parameters, bound.binds p.1 = false) :
    bindFragment report call ⟨bound, ids⟩ = .ok () ⟨bound ++ f.parameters, ids'⟩ := by
  rw [bindFragment, Composing.reporting_eq_ok_iff, bind_eq_ok_iff]
  refine ⟨f, ⟨bound, ids'⟩, Composing.onIds_eq_ok_iff.mpr ⟨ids', hcall, rfl⟩, ?_⟩
  exact Composing.onSink_eq_ok_iff.mpr ⟨_, bindNames_of_binds_eq_false hbound, rfl⟩

theorem bindFragment_eq_error {report : Fault → Fault} {call : Compiling Fragment}
    {bound : Parameters} {ids ids' : IdSource} {cause : Fault}
    (hcall : call ids = .error cause ids') :
    bindFragment report call ⟨bound, ids⟩ = .error (report cause) ⟨bound, ids'⟩ := by
  have hbind : (Composing.onIds call >>= fun f ↦ Composing.onSink (bindNames f.parameters))
      (Composition.mk bound ids) = .error cause ⟨bound, ids'⟩ := by
    apply bind_eq_error_iff.mpr
    simp only [Composing.onIds, hcall, true_or]
  rw [bindFragment, Composing.reporting, hbind]

/-- With unused identifiers the parameters of calls are bound one after the other, up to the first
call that fails.  Its fault is the only one that is reported. -/
theorem forM_bindFragment {α : Type} {list : List α} (report : α → Fault → Fault)
    {call : α → Compiling Fragment} (hcall : ∀ a ∈ list, DrawsOne (call a)) {bound : Parameters}
    {ids : IdSource} (h : IsUnused bound list.length ids) :
    (∃ fragments ids', list.mapM call ids = .ok fragments ids' ∧
      forM list (fun a ↦ bindFragment (report a) (call a)) ⟨bound, ids⟩ =
        .ok () ⟨bound ++ parametersOf fragments, ids'⟩) ∨
    ∃ done a rest fragments middle cause ids', list = done ++ a :: rest ∧
      done.mapM call ids = .ok fragments middle ∧ middle.current ∈ ids.take list.length ∧
      call a middle = .error cause ids' ∧
      forM list (fun a ↦ bindFragment (report a) (call a)) ⟨bound, ids⟩ =
        .error (report a cause) ⟨bound ++ parametersOf fragments, ids'⟩ := by
  -- Along the list the names grow and the identifiers go on; what is left stays unused.
  induction list generalizing bound ids with
  | nil =>
      refine Or.inl ⟨[], ids, rfl, ?_⟩
      rw [parametersOf, List.flatMap_nil, List.append_nil]
      rfl
  | cons a rest ih =>
      cases hfirst : call a ids with
      | error cause ids' =>
          refine Or.inr ⟨[], a, rest, [], ids, cause, ids', rfl, rfl, List.mem_cons_self, hfirst,
            ?_⟩
          rw [List.forM_cons, bind_eq_error_iff, bindFragment_eq_error hfirst]
          simp [parametersOf]
      | ok f ids' =>
          have hdraws := hcall a List.mem_cons_self
          have hstep : bindFragment (report a) (call a) ⟨bound, ids⟩ =
              .ok () ⟨bound ++ f.parameters, ids'⟩ :=
            bindFragment_eq_ok hfirst (h.binds_eq_false hdraws hfirst)
          have hparameters : ∀ fragments, bound ++ f.parameters ++ parametersOf fragments =
              bound ++ parametersOf (f :: fragments) := fun fragments ↦ by
            rw [parametersOf, parametersOf, List.flatMap_cons, List.append_assoc]
          rcases ih (fun b hb ↦ hcall b (List.mem_cons_of_mem _ hb)) (h.next hdraws hfirst) with
            ⟨fragments, last, hmap, hrun⟩ |
            ⟨done, b, others, fragments, middle, cause, last, rfl, hmap, hcurrent, hfail, hrun⟩
          · refine Or.inl ⟨f :: fragments, last, ?_, ?_⟩
            · rw [List.mapM_cons]
              exact bind_eq_ok_iff.mpr ⟨f, ids', hfirst, bind_eq_ok_iff.mpr
                ⟨fragments, last, hmap, rfl⟩⟩
            · rw [List.forM_cons, bind_unit_eq_ok_iff]
              exact ⟨_, hstep, hparameters fragments ▸ hrun⟩
          · refine Or.inr ⟨a :: done, b, others, f :: fragments, middle, cause, last, rfl, ?_,
              IsUnused.take_subset hdraws hfirst _ hcurrent, hfail, ?_⟩
            · rw [List.mapM_cons]
              exact bind_eq_ok_iff.mpr ⟨f, ids', hfirst, bind_eq_ok_iff.mpr
                ⟨fragments, middle, hmap, rfl⟩⟩
            · rw [List.forM_cons, bind_eq_error_iff]
              exact Or.inr ⟨(), _, hstep, hparameters fragments ▸ hrun⟩

end FilterTree

end Criteria
