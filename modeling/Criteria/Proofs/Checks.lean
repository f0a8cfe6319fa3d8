import Criteria.Proofs.Language

/-!
# The checks of a compiler

Compiling is a sequence of checks, and the fault that is reported is that of the first one that
fails.  Each check is a statement about the target, the alias, the condition and the registry, and
does not depend on the checks before it.
-/

namespace Criteria

/-- The checks of a compiler. -/
inductive Step where
  | target | fieldAlias | presence | keyCount | operandPresence | shape | operator | operand

namespace Step

/-- The checks in the order in which they are made. -/
def order : List Step :=
  [target, fieldAlias, presence, keyCount, operandPresence, shape, operator, operand]

/-- Whether a check has nothing to object to. -/
def Passes (registry : Registry) (targetValue aliasValue condition : Value) : Step → Prop
  | target => targetValue = .text "qb" ∨ targetValue = .text "find"
  | fieldAlias => targetValue = .text "qb" → ∃ s, aliasValue = .text s ∧ Text.isBlankText s = false
  | presence => condition ≠ .null
  | keyCount => ∀ entries, condition = .dict entries → entries.length = 1
  | operandPresence => ∀ token, condition ≠ .dict [(token, .null)]
  | shape => (∃ entries, condition = .dict entries) ∨ condition.Literal ∨
      ∃ items, condition.Lists items ∧ ∀ i ∈ items, i.Scalar
  | operator => (∃ s : Sentinel, condition = .text s.token) ∨
      ∃ o ∈ registry, ∃ operand, ResolvesTo condition o operand
  | operand => ∀ o operand, ResolvesTo condition o operand → o.Fits operand

end Step

/-- The check that a fault is the fault of. -/
def ConditionFault.step? : ConditionFault → Option Step
  | unsupportedTarget _ => some .target
  | invalidAlias _ => some .fieldAlias
  | missingCondition => some .presence
  | ambiguousShape _ => some .keyCount
  | missingOperand _ => some .operandPresence
  | conditionShape _ _ => some .shape
  | unknownOperator _ _ => some .operator
  | operandShape _ _ _ => some .operand
  | _ => none

/-! ## What a fault shows -/

/-- The keys of a condition object have texts. -/
def Value.ShowsKeys (condition : Value) : Prop :=
  ∀ entries, condition = .dict entries → ∀ e ∈ entries, e.1.hasText = true

theorem Value.haveTexts_iff {items : List Value} :
    haveTexts items = true ↔ ∀ v ∈ items, v.hasText = true := by
  induction items with
  | nil => simp [haveTexts]
  | cons v rest ih => rw [haveTexts, Bool.and_eq_true, ih, List.forall_mem_cons]

theorem ConditionFault.raised_of_hasMessage {cause : ConditionFault} (h : cause.hasMessage = true) :
    Fault.raised cause = .condition cause := if_pos h

theorem Condition.hasMessage_of_classify {condition : Value} {cause : ConditionFault}
    (hkeys : condition.ShowsKeys) (h : classify condition = .error cause) :
    cause.hasMessage = true := by
  rcases classify_eq_error h with ⟨-, rfl⟩ | ⟨token, rfl, rfl⟩ | ⟨entries, rfl, -, rfl⟩ |
    ⟨-, -, -, -, _, rfl⟩
  · rfl
  · exact hkeys _ rfl _ List.mem_cons_self
  · exact Value.haveTexts_iff.mpr (List.forall_mem_map.mpr (hkeys entries rfl))
  · rfl

/-- Of a condition a fault shows the keys alone. -/
theorem hasMessage_of_admission {registry : Registry} {condition : Value} {cause : ConditionFault}
    (hkeys : condition.ShowsKeys) (h : admission registry condition = .error cause) :
    cause.hasMessage = true := by
  cases hshape : Condition.classify condition with
  | error other =>
      obtain rfl : other = cause := by simpa [admission, hshape] using h
      exact Condition.hasMessage_of_classify hkeys hshape
  | ok shape =>
      rcases sentinel_or_requests_of_classify hshape with ⟨s, rfl⟩ | ⟨request, operand, hrequest⟩
      · cases s <;> cases h
      · rw [hrequest.admission_eq] at h
        rcases operatorAdmission_eq_error h with ⟨-, rfl⟩ | ⟨o, -, -, -, rfl⟩
        · cases hrequest with
          | object hnull => exact hkeys _ rfl _ List.mem_cons_self
          | _ => rfl
        · rfl

/-! ## The first check that fails -/

/-- The checks that are made before the condition is looked at. -/
def entryCheck (target fieldAlias : Value) : Except ConditionFault Target :=
  match resolveTarget target with
  | .error cause => .error cause
  | .ok .find => .ok .find
  | .ok .queryBuilder => (checkAlias fieldAlias).map fun _ ↦ .queryBuilder

theorem compile_of_entryCheck_eq_error {target fieldAlias : Value} {cause : ConditionFault}
    (h : entryCheck target fieldAlias = .error cause) (registry : Registry) (condition : Value)
    (ids : IdSource) :
    compile registry target fieldAlias condition ids = .error (.raised cause) ids := by
  rw [entryCheck] at h
  cases htarget : resolveTarget target with
  | error other =>
      obtain rfl : other = cause := by simpa [htarget] using h
      exact compile_eq_error_iff.mpr (Or.inl ⟨other, htarget, rfl, rfl⟩)
  | ok t =>
      cases t with
      | find => simp [htarget] at h
      | queryBuilder =>
          have halias : checkAlias fieldAlias = .error cause := by
            cases hcheck : checkAlias fieldAlias with
            | error other => simpa [htarget, hcheck, Except.map] using h
            | ok u => simp [htarget, hcheck, Except.map] at h
          exact compile_eq_error_iff.mpr (Or.inr (Or.inl ⟨htarget,
            compileFragment_eq_error_iff.mpr (Or.inl ⟨cause, halias, rfl, rfl⟩)⟩))

/-- Behind the first checks a compiler fails for the target, or for a query with an alias. -/
theorem entryCheck_eq_ok {target fieldAlias : Value} {t : Target}
    (h : entryCheck target fieldAlias = .ok t) :
    resolveTarget target = .ok .find ∨
      resolveTarget target = .ok .queryBuilder ∧ checkAlias fieldAlias = .ok () := by
  rw [entryCheck] at h
  cases htarget : resolveTarget target with
  | error cause => simp [htarget] at h
  | ok t =>
      cases t with
      | find => exact Or.inl rfl
      | queryBuilder =>
          refine Or.inr ⟨rfl, ?_⟩
          cases hcheck : checkAlias fieldAlias with
          | error other => simp [htarget, hcheck, Except.map] at h
          | ok u => rfl

theorem compile_of_admission_eq_error {registry : Registry} {target fieldAlias condition : Value}
    {t : Target} {cause : ConditionFault} (hentry : entryCheck target fieldAlias = .ok t)
    (h : admission registry condition = .error cause) (ids : IdSource) :
    compile registry target fieldAlias condition ids = .error (.raised cause) ids := by
  rcases entryCheck_eq_ok hentry with hfind | ⟨hquery, halias⟩
  · exact compile_eq_error_iff.mpr (Or.inr (Or.inr ⟨hfind,
      compileFind_eq_error_iff.mpr ⟨cause, h, rfl, rfl⟩⟩))
  · exact compile_eq_error_iff.mpr (Or.inr (Or.inl ⟨hquery,
      compileFragment_eq_error_iff.mpr (Or.inr ⟨halias, Or.inl ⟨cause, h, rfl, rfl⟩⟩)⟩))

theorem exists_compile_of_fragment {registry : Registry} {target fieldAlias condition : Value}
    {t : Target} {a : Admitted} {f : Fragment} (hentry : entryCheck target fieldAlias = .ok t)
    (h : admission registry condition = .ok a) {ids : IdSource}
    (hf : a.fragment ids.current fieldAlias = .ok f) :
    ∃ out, compile registry target fieldAlias condition ids = .ok out (a.idsAfter ids) := by
  rcases entryCheck_eq_ok hentry with hfind | ⟨hquery, halias⟩
  · exact ⟨_, compile_eq_ok_iff.mpr (Or.inr ⟨hfind, _,
      compileFind_eq_ok_iff.mpr ⟨a, h, rfl, rfl⟩, rfl⟩)⟩
  · exact ⟨_, compile_eq_ok_iff.mpr (Or.inl ⟨hquery, f,
      compileFragment_eq_ok_iff.mpr ⟨halias, a, h, hf, rfl⟩, rfl⟩)⟩

/-- Where rendering cannot fail, what is accepted is what passes the checks. -/
theorem exists_compile_iff {registry : Registry} {target fieldAlias condition : Value}
    {ids : IdSource} (hf : ∀ a, admission registry condition = .ok a →
      ∃ f, a.fragment ids.current fieldAlias = .ok f) :
    (∃ out left, compile registry target fieldAlias condition ids = .ok out left) ↔
      (∃ t, entryCheck target fieldAlias = .ok t) ∧ ∃ a, admission registry condition = .ok a := by
  constructor
  · rintro ⟨out, left, hrun⟩
    cases hentry : entryCheck target fieldAlias with
    | error cause =>
        rw [compile_of_entryCheck_eq_error hentry] at hrun
        cases hrun
    | ok t =>
        refine ⟨⟨t, rfl⟩, ?_⟩
        cases hadmission : admission registry condition with
        | error cause =>
            rw [compile_of_admission_eq_error hentry hadmission] at hrun
            cases hrun
        | ok a => exact ⟨a, rfl⟩
  · rintro ⟨⟨t, hentry⟩, a, ha⟩
    obtain ⟨f, hfragment⟩ := hf a ha
    obtain ⟨out, hrun⟩ := exists_compile_of_fragment hentry ha hfragment
    exact ⟨out, _, hrun⟩

end Criteria
