import Criteria.Proofs.Names
import Criteria.Proofs.Shapes
import Criteria.Proofs.Wording

/-!
# Conditions that are rejected

Compiling a condition fails at its first check that fails, and then no identifier has been drawn;
behind the checks only a template can fail.  The fault is one of the condition alone: it says
nothing about other conditions that names could clash with, and nothing about a place in a tree.
-/

namespace Criteria

/-- A fault of a condition by itself. -/
def ConditionFault.IsElementary : ConditionFault → Prop
  | nameBound _ => False
  | located _ _ _ _ => False
  | _ => True

/-- A fault that is neither one of several conditions together nor one with a place in a tree. -/
def Fault.IsElementary : Fault → Prop
  | condition cause => cause.IsElementary
  | _ => True

theorem ConditionFault.IsElementary.raised {cause : ConditionFault} (h : cause.IsElementary) :
    (Fault.raised cause).IsElementary := by
  rw [Fault.raised]
  split
  · exact h
  · trivial

theorem Condition.isElementary_of_classify {condition : Value} {cause : ConditionFault}
    (h : classify condition = .error cause) : cause.IsElementary := by
  rcases classify_eq_error h with ⟨-, rfl⟩ | ⟨_, -, rfl⟩ | ⟨_, -, -, rfl⟩ | ⟨-, -, -, -, _, rfl⟩ <;>
    trivial

theorem isElementary_of_operatorAdmission {registry : Registry} {request : OperatorRequest}
    {operand : Value} {cause : ConditionFault}
    (h : operatorAdmission registry request operand = .error cause) : cause.IsElementary := by
  rw [operatorAdmission, Registry.resolve] at h
  cases hfind : registry.find? request with
  | none =>
      simp only [hfind, Except.error.injEq] at h
      subst h
      trivial
  | some o =>
      simp only [hfind, Operator.criterion] at h
      cases hc : o.criterion? operand with
      | none =>
          simp only [hc, Except.error.injEq] at h
          subst h
          trivial
      | some c => simp [hc] at h

theorem isElementary_of_admission {registry : Registry} {condition : Value}
    {cause : ConditionFault} (h : admission registry condition = .error cause) :
    cause.IsElementary := by
  rw [admission] at h
  cases hshape : Condition.classify condition with
  | error fault =>
      simp only [hshape, Except.error.injEq] at h
      exact h ▸ Condition.isElementary_of_classify hshape
  | ok shape =>
      rw [hshape] at h
      cases shape with
      | sentinel s => cases s <;> cases h
      | _ => exact isElementary_of_operatorAdmission h

theorem isElementary_of_checkAlias {fieldAlias : Value} {cause : ConditionFault}
    (h : checkAlias fieldAlias = .error cause) : cause.IsElementary := by
  rw [checkAlias.eq_def] at h
  split at h
  · split at h
    · obtain rfl := Except.error.inj h
      trivial
    · cases h
  · obtain rfl := Except.error.inj h
    trivial

/-! ## Compiling that fails -/

theorem Compiling.ofCheck_eq_error_iff {α : Type} {check : Except ConditionFault α} {fault : Fault}
    {ids ids' : IdSource} : ofCheck check ids = .error fault ids' ↔
      ∃ cause, check = .error cause ∧ fault = .raised cause ∧ ids' = ids := by
  cases check with
  | error cause => simp [ofCheck, throw_apply, eq_comm]
  | ok a => simp [ofCheck, pure, EStateM.pure]

theorem Compiling.ofRendering_eq_error_iff {α : Type} {rendering : Except Fault α} {fault : Fault}
    {ids ids' : IdSource} :
    ofRendering rendering ids = .error fault ids' ↔ rendering = .error fault ∧ ids' = ids := by
  cases rendering with
  | error other => simp [ofRendering, throw_apply, eq_comm]
  | ok a => simp [ofRendering, pure, EStateM.pure]

theorem Compiling.drawFor_ne_error {a : Admitted} {fault : Fault} {ids ids' : IdSource} :
    drawFor a ids ≠ .error fault ids' := by
  cases a <;> exact nofun

/-- A fragment is refused for its alias, for its condition, or for its template. -/
theorem compileFragment_eq_error_iff {registry : Registry} {fieldAlias condition : Value}
    {fault : Fault} {ids ids' : IdSource} :
    compileFragment registry fieldAlias condition ids = .error fault ids' ↔
      (∃ cause, checkAlias fieldAlias = .error cause ∧ fault = .raised cause ∧ ids' = ids) ∨
      checkAlias fieldAlias = .ok () ∧
        ((∃ cause, admission registry condition = .error cause ∧ fault = .raised cause ∧
          ids' = ids) ∨
        ∃ a, admission registry condition = .ok a ∧
          a.fragment ids.current fieldAlias = .error fault ∧ ids' = a.idsAfter ids) := by
  simp only [compileFragment, bind_eq_error_iff, Compiling.ofCheck_eq_error_iff,
    Compiling.ofCheck_eq_ok_iff, Compiling.drawFor_eq_ok_iff, Compiling.drawFor_ne_error, false_or,
    Compiling.ofRendering_eq_error_iff]
  apply or_congr Iff.rfl
  constructor
  · rintro ⟨_, _, ⟨halias, rfl⟩, h | ⟨a, _, ⟨hadmitted, rfl⟩, _, _, ⟨rfl, rfl⟩, hfragment, rfl⟩⟩
    · exact ⟨halias, Or.inl h⟩
    · exact ⟨halias, Or.inr ⟨a, hadmitted, hfragment, rfl⟩⟩
  · rintro ⟨halias, h | ⟨a, hadmitted, hfragment, rfl⟩⟩
    · exact ⟨(), ids, ⟨halias, rfl⟩, Or.inl h⟩
    · exact ⟨(), ids, ⟨halias, rfl⟩, Or.inr ⟨a, ids, ⟨hadmitted, rfl⟩, _, _, ⟨rfl, rfl⟩, hfragment,
        rfl⟩⟩

theorem compileFind_eq_error_iff {registry : Registry} {fieldAlias condition : Value}
    {fault : Fault} {ids ids' : IdSource} :
    compileFind registry fieldAlias condition ids = .error fault ids' ↔
      ∃ cause, admission registry condition = .error cause ∧ fault = .raised cause ∧
        ids' = ids := by
  simp [compileFind, bind_eq_error_iff, Compiling.ofCheck_eq_error_iff, Compiling.drawFor_ne_error,
    pure, EStateM.pure]

theorem map_eq_error_iff {ε σ α β : Type} {x : EStateM ε σ α} {f : α → β} {s s' : σ} {fault : ε} :
    (f <$> x) s = .error fault s' ↔ x s = .error fault s' := by
  change EStateM.map f x s = .error fault s' ↔ _
  rw [EStateM.map]
  cases x s <;> simp

theorem compile_eq_error_iff {registry : Registry} {target fieldAlias condition : Value}
    {fault : Fault} {ids ids' : IdSource} :
    compile registry target fieldAlias condition ids = .error fault ids' ↔
      (∃ cause, resolveTarget target = .error cause ∧ fault = .raised cause ∧ ids' = ids) ∨
      (resolveTarget target = .ok .queryBuilder ∧
        compileFragment registry fieldAlias condition ids = .error fault ids') ∨
      (resolveTarget target = .ok .find ∧
        compileFind registry fieldAlias condition ids = .error fault ids') := by
  simp only [compile, bind_eq_error_iff, Compiling.ofCheck_eq_error_iff,
    Compiling.ofCheck_eq_ok_iff]
  apply or_congr Iff.rfl
  constructor
  · rintro ⟨target', _, ⟨htarget, rfl⟩, h⟩
    cases target' with
    | queryBuilder => exact Or.inl ⟨htarget, map_eq_error_iff.mp h⟩
    | find => exact Or.inr ⟨htarget, map_eq_error_iff.mp h⟩
  · rintro (⟨htarget, h⟩ | ⟨htarget, h⟩)
    · exact ⟨.queryBuilder, ids, ⟨htarget, rfl⟩, map_eq_error_iff.mpr h⟩
    · exact ⟨.find, ids, ⟨htarget, rfl⟩, map_eq_error_iff.mpr h⟩

theorem Admitted.isElementary_of_fragment {id : String} {fieldAlias : Value} {a : Admitted}
    {fault : Fault} (h : a.fragment id fieldAlias = .error fault) : fault.IsElementary := by
  cases a with
  | nullCheck negated => cases h
  | criterion o c =>
      cases c with
      | document relation operand json =>
          simp only [Admitted.fragment, Criterion.fragment] at h
          split at h
          · cases h
          · obtain rfl := Except.error.inj h
            trivial
      | _ => cases h

theorem isElementary_of_compileFragment {registry : Registry} {fieldAlias condition : Value}
    {fault : Fault} {ids ids' : IdSource}
    (h : compileFragment registry fieldAlias condition ids = .error fault ids') :
    fault.IsElementary := by
  rcases compileFragment_eq_error_iff.mp h with
    ⟨cause, halias, rfl, -⟩ | ⟨-, ⟨cause, hadmitted, rfl, -⟩ | ⟨a, -, hfragment, -⟩⟩
  · exact (isElementary_of_checkAlias halias).raised
  · exact (isElementary_of_admission hadmitted).raised
  · exact a.isElementary_of_fragment hfragment

end Criteria
