import Criteria.Proofs.Rejections

/-!
# The language of conditions

The conditions that a compiler accepts, said without its checks: a condition is a bare sentinel, or
it asks for an operator that the registry has, with an operand of the shape that it takes.  Only
what asks for an operator depends on whether the registry has it.
-/

namespace Criteria

/-- A condition asks for an operator with an operand: an object by its token, a bare array for
membership, and a bare literal that is no sentinel for equality. -/
inductive Requests : Value → OperatorRequest → Value → Prop where
  | object {token operand : Value} (h : operand ≠ .null) :
      Requests (.dict [(token, operand)]) (.token token) operand
  | array {condition : Value} {items : List Value} (hitems : condition.Lists items)
      (h : ∀ i ∈ items, i.Scalar) : Requests condition (.implied .isIn) (.list items)
  | literal {condition : Value} (h : condition.Literal)
      (hsentinel : ∀ s : Sentinel, condition ≠ .text s.token) :
      Requests condition (.implied .equalTo) condition

/-- A condition resolves to an operator, whatever the registry. -/
def ResolvesTo (condition : Value) (o : Operator) (operand : Value) : Prop :=
  ∃ request, Requests condition request operand ∧ request.tokenText? = some o.token

/-- Whoever has a token is found by it when no one before has the same. -/
theorem find?_token_eq_some_iff {α : Type} {all : List α} {token : α → String}
    (hall : ∀ a, all.find? (token · == token a) = some a) {s : String} {a : α} :
    all.find? (token · == s) = some a ↔ s = token a := by
  constructor
  · intro h
    have htoken := List.find?_some h
    exact (beq_iff_eq.mp htoken).symm
  · rintro rfl
    exact hall a

theorem Operator.ofToken?_eq_some_iff {s : String} {o : Operator} :
    ofToken? s = some o ↔ s = o.token :=
  find?_token_eq_some_iff fun o ↦ by cases o <;> rfl

theorem Operator.token_injective {o other : Operator} (h : o.token = other.token) : o = other := by
  have hother : ofToken? o.token = some other := ofToken?_eq_some_iff.mpr h
  rw [ofToken?_eq_some_iff.mpr rfl] at hother
  exact Option.some.inj hother

theorem Sentinel.ofToken?_eq_some_iff {s : String} {mark : Sentinel} :
    ofToken? s = some mark ↔ s = mark.token :=
  find?_token_eq_some_iff fun mark ↦ by cases mark <;> rfl

theorem Registry.find?_eq_some_iff {registry : Registry} {request : OperatorRequest}
    {o : Operator} :
    registry.find? request = some o ↔ request.tokenText? = some o.token ∧ o ∈ registry := by
  rw [find?, Option.filter_eq_some_iff, Option.bind_eq_some_iff, List.contains_iff_mem]
  apply and_congr _ Iff.rfl
  simp only [Operator.ofToken?_eq_some_iff, exists_eq_right]

theorem Target.ofToken?_eq_some_iff {s : String} {target : Target} :
    ofToken? s = some target ↔ s = target.token :=
  find?_token_eq_some_iff fun target ↦ by cases target <;> rfl

/-! ## Conditions that are classified -/

/-- A condition with a shape is a bare sentinel or asks for an operator. -/
theorem sentinel_or_requests_of_classify {condition : Value} {shape : Condition}
    (h : Condition.classify condition = .ok shape) :
    (∃ s : Sentinel, condition = .text s.token) ∨
      ∃ request operand, Requests condition request operand := by
  rw [Condition.classify.eq_def] at h
  split at h
  · cases h
  · rename_i token operand
    split at h
    · cases h
    · rename_i hnull
      refine Or.inr ⟨_, _, .object ?_⟩
      rintro rfl
      exact hnull rfl
  · cases h
  · rename_i items
    rw [Condition.ofItems] at h
    split at h
    · rename_i hall
      exact Or.inr ⟨_, _, .array (Or.inl rfl) (Value.all_isScalar_iff.mp hall)⟩
    · cases h
  · rename_i items
    rw [Condition.ofItems] at h
    split at h
    · rename_i hall
      exact Or.inr ⟨_, _, .array (Or.inr rfl) (Value.all_isScalar_iff.mp hall)⟩
    · cases h
  · rename_i s
    split at h
    · rename_i mark hmark
      exact Or.inl ⟨mark, congrArg Value.text (Sentinel.ofToken?_eq_some_iff.mp hmark)⟩
    · rename_i hnone
      refine Or.inr ⟨_, _, .literal (.scalar (.text s)) fun mark hmark ↦ ?_⟩
      rw [Value.text.injEq] at hmark
      rw [Sentinel.ofToken?_eq_some_iff.mpr hmark] at hnone
      cases hnone
  · rename_i hnull hone hdict hlist htuple htext
    split at h
    · rename_i hliteral
      refine Or.inr ⟨_, _, .literal (Value.isLiteral_iff.mp hliteral) fun mark ↦ ?_⟩
      exact htext mark.token
    · cases h

theorem Requests.admission_eq {condition operand : Value} {request : OperatorRequest}
    (h : Requests condition request operand) (registry : Registry) :
    admission registry condition = operatorAdmission registry request operand := by
  cases h with
  | object h =>
      have hnull : operand.isNull = false := by
        cases operand <;> first | rfl | exact absurd rfl h
      simp only [admission, Condition.classify, hnull, Bool.false_eq_true, if_false]
  | array hitems h =>
      have hall := Value.all_isScalar_iff.mpr h
      rcases hitems with rfl | rfl <;>
        simp only [admission, Condition.classify, Condition.ofItems, hall, if_true]
  | literal h hsentinel =>
      cases h with
      | bool b => rfl
      | scalar h =>
          cases h with
          | text s =>
              have hnone : Sentinel.ofToken? s = none := by
                refine Option.eq_none_iff_forall_ne_some.mpr fun mark hmark ↦ ?_
                exact hsentinel mark (congrArg Value.text (Sentinel.ofToken?_eq_some_iff.mp hmark))
              simp only [admission, Condition.classify, hnone]
          | _ => rfl

theorem Requests.unique {condition operand operand' : Value} {request request' : OperatorRequest}
    (h : Requests condition request operand) (h' : Requests condition request' operand') :
    request = request' ∧ operand = operand' := by
  cases h with
  | object h =>
      cases h' with
      | object h' => exact ⟨rfl, rfl⟩
      | array hitems h' => exact absurd rfl (hitems.ne_dict _)
      | literal h' => exact absurd rfl (h'.ne_dict _)
  | array hitems h =>
      cases h' with
      | object h' => exact absurd rfl (hitems.ne_dict _)
      | array hitems' h' =>
          exact ⟨rfl, congrArg Value.list (hitems.unique hitems')⟩
      | literal h' => exact absurd h' hitems.not_literal
  | literal h hsentinel =>
      cases h' with
      | object h' => exact absurd rfl (h.ne_dict _)
      | array hitems h' => exact absurd h hitems.not_literal
      | literal h' => exact ⟨rfl, rfl⟩

theorem Requests.ne_sentinel {condition operand : Value} {request : OperatorRequest}
    (h : Requests condition request operand) (s : Sentinel) : condition ≠ .text s.token := by
  cases h with
  | object h => exact nofun
  | array hitems h => rcases hitems with rfl | rfl <;> exact nofun
  | literal h hsentinel => exact hsentinel s

theorem operatorAdmission_eq_ok_iff {registry : Registry} {request : OperatorRequest}
    {operand : Value} {a : Admitted} : operatorAdmission registry request operand = .ok a ↔
      ∃ o c, registry.find? request = some o ∧ o.criterion? operand = some c ∧
        a = .criterion o c := by
  rw [operatorAdmission, Registry.resolve]
  cases registry.find? request with
  | none => simp
  | some o =>
      cases hc : o.criterion? operand with
      | none => simp [Operator.criterion, hc]
      | some c => simp [Operator.criterion, hc, eq_comm (a := a)]

/-- What is admitted is a bare sentinel, or asks for an operator that makes a criterion. -/
theorem sentinel_or_criterion_of_admission {registry : Registry} {condition : Value}
    {a : Admitted} (h : admission registry condition = .ok a) :
    (∃ s : Sentinel, condition = .text s.token ∧ a = .nullCheck (decide (s = .isNotNull))) ∨
      ∃ request operand o c, Requests condition request operand ∧
        o.criterion? operand = some c ∧ a = .criterion o c := by
  cases hshape : Condition.classify condition with
  | error cause => simp [admission, hshape] at h
  | ok shape =>
      rcases sentinel_or_requests_of_classify hshape with ⟨s, rfl⟩ | ⟨request, operand, hrequest⟩
      · refine Or.inl ⟨s, rfl, ?_⟩
        cases s <;> exact (Except.ok.inj h).symm
      · rw [hrequest.admission_eq, operatorAdmission_eq_ok_iff] at h
        obtain ⟨o, c, -, hc, rfl⟩ := h
        exact Or.inr ⟨request, operand, o, c, hrequest, hc, rfl⟩

/-- A condition object with the token of an operator is admitted when the operator is registered and
makes a criterion of the operand, which has to be there. -/
theorem admission_object_eq_ok_iff {registry : Registry} {o : Operator} {operand : Value}
    {a : Admitted} : admission registry (.dict [(.text o.token, operand)]) = .ok a ↔
      operand ≠ .null ∧ o ∈ registry ∧ ∃ c, o.criterion? operand = some c ∧
        a = .criterion o c := by
  by_cases hnull : operand = .null
  · subst hnull
    simp [admission, Condition.classify, Value.isNull]
  · rw [(Requests.object hnull).admission_eq, operatorAdmission_eq_ok_iff]
    constructor
    · rintro ⟨other, c, hfind, hc, rfl⟩
      obtain ⟨htoken, ho⟩ := Registry.find?_eq_some_iff.mp hfind
      obtain rfl : o = other := Operator.token_injective (Option.some.inj htoken)
      exact ⟨hnull, ho, c, hc, rfl⟩
    · rintro ⟨-, ho, c, hc, rfl⟩
      exact ⟨o, c, Registry.find?_eq_some_iff.mpr ⟨rfl, ho⟩, hc, rfl⟩

/-- A request fails because no operator of the registry has its token, or because the operand does
not fit. -/
theorem operatorAdmission_eq_error {registry : Registry} {request : OperatorRequest}
    {operand : Value} {cause : ConditionFault}
    (h : operatorAdmission registry request operand = .error cause) :
    (∀ o ∈ registry, request.tokenText? ≠ some o.token) ∧
        cause = .unknownOperator request (registry.map Operator.token) ∨
      ∃ o ∈ registry, request.tokenText? = some o.token ∧ ¬o.Fits operand ∧
        cause = .operandShape o.token o.expectation operand := by
  rw [operatorAdmission, Registry.resolve] at h
  cases hfind : registry.find? request with
  | none =>
      simp only [hfind, Except.error.injEq] at h
      refine Or.inl ⟨fun o ho htoken ↦ ?_, h.symm⟩
      rw [Registry.find?_eq_some_iff.mpr ⟨htoken, ho⟩] at hfind
      cases hfind
  | some o =>
      obtain ⟨htoken, ho⟩ := Registry.find?_eq_some_iff.mp hfind
      simp only [hfind, Operator.criterion] at h
      cases hc : o.criterion? operand with
      | some c => simp [hc] at h
      | none =>
          simp only [hc, Except.error.injEq] at h
          refine Or.inr ⟨o, ho, htoken, fun hfits ↦ ?_, h.symm⟩
          have hsome := Operator.isSome_criterion?.mpr hfits
          rw [hc] at hsome
          cases hsome

theorem operatorAdmission_of_find?_eq_none {registry : Registry} {request : OperatorRequest}
    (h : registry.find? request = none) (operand : Value) :
    operatorAdmission registry request operand =
      .error (.unknownOperator request (registry.map Operator.token)) := by
  simp only [operatorAdmission, Registry.resolve, h]

end Criteria
