import Criteria.Proofs.Acceptance

/-!
# Bare conditions

A bare literal stands for equality and a bare array for membership.  Compiling one is compiling the
object that spells the operator out, as long as the registry has the operator: the token is looked
up in the same way, and the operand makes the same criterion.  When the registry does not have it,
both fail in the same way, but the faults name the operator differently.
-/

namespace Criteria

/-- The object that spells out the operator that a bare condition stands for. -/
def spelledOut (o : Operator) (condition : Value) : Value := .dict [(.text o.token, condition)]

/-- Faults of one unknown operator.  They differ in how they name it, the first as messages name
operators and the second by its token, and in nothing else. -/
structure NamedApart (o : Operator) (bare explicit : ConditionFault) : Prop where
  code_eq : bare.code = explicit.code
  messages : ∃ rest, bare.message = bare.code ++ " " ++ OperatorRequest.nameInMessages o ++ rest ∧
    explicit.message = explicit.code ++ " " ++ o.token ++ rest
  operators : bare.report.lookup "operator" = some (.text (OperatorRequest.nameInMessages o)) ∧
    explicit.report.lookup "operator" = some (.text o.token)
  others : ∀ key, key ≠ "message" → key ≠ "operator" →
    bare.report.lookup key = explicit.report.lookup key

variable {condition operand : Value} {o : Operator}

/-- An array makes the same criterion as the list of its items. -/
theorem Requests.criterion?_eq (h : Requests condition (.implied o) operand) :
    o.criterion? condition = o.criterion? operand := by
  cases h with
  | array hitems h =>
      rcases hitems with rfl | rfl <;> rfl
  | literal h hsentinel => rfl

theorem Requests.fits (h : Requests condition (.implied o) operand) : o.Fits operand := by
  cases h with
  | @array _ items hitems h => exact ⟨items, Or.inl rfl, h⟩
  | literal h hsentinel => exact h

theorem Requests.of_spelledOut (h : Requests condition (.implied o) operand) :
    Requests (spelledOut o condition) (.token (.text o.token)) condition := by
  apply Requests.object
  rintro rfl
  cases h with
  | array hitems h => exact hitems.ne_null rfl
  | literal h hsentinel => cases Value.isLiteral_iff.mpr h

theorem Requests.admission_spelledOut {registry : Registry}
    (h : Requests condition (.implied o) operand) (ho : o ∈ registry) :
    admission registry condition = admission registry (spelledOut o condition) := by
  have hfind : ∀ request : OperatorRequest, request.tokenText? = some o.token →
      registry.find? request = some o := fun request htoken ↦
    Registry.find?_eq_some_iff.mpr ⟨htoken, ho⟩
  obtain ⟨c, hc⟩ := Option.isSome_iff_exists.mp (Operator.isSome_criterion?.mpr h.fits)
  have hbare : operatorAdmission registry (.implied o) operand = .ok (.criterion o c) :=
    operatorAdmission_eq_ok_iff.mpr ⟨o, c, hfind _ rfl, hc, rfl⟩
  have hexplicit : operatorAdmission registry (.token (.text o.token)) condition =
      .ok (.criterion o c) :=
    operatorAdmission_eq_ok_iff.mpr ⟨o, c, hfind _ rfl, h.criterion?_eq.trans hc, rfl⟩
  rw [h.admission_eq, h.of_spelledOut.admission_eq, hbare, hexplicit]

theorem admission_of_notMem {registry : Registry} {request : OperatorRequest}
    (h : Requests condition request operand) (htoken : request.tokenText? = some o.token)
    (ho : o ∉ registry) : admission registry condition =
      .error (.unknownOperator request (registry.map Operator.token)) := by
  have hfind : registry.find? request = none := by
    refine Option.eq_none_iff_forall_ne_some.mpr fun other hother ↦ ho ?_
    obtain ⟨hsame, hmem⟩ := Registry.find?_eq_some_iff.mp hother
    obtain rfl : o = other := Operator.token_injective (Option.some.inj (htoken.symm.trans hsame))
    exact hmem
  rw [h.admission_eq, operatorAdmission_of_find?_eq_none hfind]

/-- Asking by a member and by its token is the same but for the name. -/
theorem namedApart_unknownOperator (o : Operator) (known : List String) :
    NamedApart o (.unknownOperator (.implied o) known)
      (.unknownOperator (.token (.text o.token)) known) where
  code_eq := rfl
  messages := ⟨_, rfl, rfl⟩
  operators := ⟨rfl, rfl⟩
  others key hmessage hoperator := by
    have hmessage' : (key == "message") = false := by simpa using hmessage
    have hoperator' : (key == "operator") = false := by simpa using hoperator
    simp only [ConditionFault.report, List.lookup_cons, hmessage', hoperator']
    rfl

/-- A bare literal or array compiles exactly like the object that spells out its operator, to the
same result with the same identifiers or to the same fault, when the registry has that operator, and
also when the target or the alias is refused.  When the registry does not have it, both are refused
without drawing an identifier, as one unknown operator that they name differently. -/
theorem bare_condition_compiles_like_spelledOut {registry : Registry}
    (h : Requests condition (.implied o) operand) (target fieldAlias : Value) (ids : IdSource) :
    (o ∈ registry ∨ (∃ cause, entryCheck target fieldAlias = .error cause) →
      compile registry target fieldAlias condition ids =
        compile registry target fieldAlias (spelledOut o condition) ids) ∧
    (o ∉ registry → (∃ t, entryCheck target fieldAlias = .ok t) → ∃ bare explicit,
      compile registry target fieldAlias condition ids = .error (.condition bare) ids ∧
      compile registry target fieldAlias (spelledOut o condition) ids =
        .error (.condition explicit) ids ∧
      bare = .unknownOperator (.implied o) (registry.map Operator.token) ∧
      explicit = .unknownOperator (.token (.text o.token)) (registry.map Operator.token) ∧
      NamedApart o bare explicit) := by
  constructor
  · rintro (ho | ⟨cause, hcause⟩)
    · rw [compile_congr (h.admission_spelledOut ho)]
    · rw [compile_of_entryCheck_eq_error hcause, compile_of_entryCheck_eq_error hcause]
  · rintro ho ⟨t, ht⟩
    have hbare := admission_of_notMem h rfl ho
    have hexplicit := admission_of_notMem h.of_spelledOut rfl ho
    exact ⟨_, _, compile_of_admission_eq_error ht hbare ids,
      compile_of_admission_eq_error ht hexplicit ids, rfl, rfl, namedApart_unknownOperator o _⟩

/-- A number that asks for equality, which the registry does not have. -/
theorem bare_condition_compiles_like_spelledOut_unknown :
    ∃ bare explicit, Requests (.int 1) (.implied .equalTo) (.int 1) ∧
      compile [.gt] (.text "qb") (.text "e.a") (.int 1) .standard =
        .error (.condition bare) .standard ∧
      compile [.gt] (.text "qb") (.text "e.a") (.dict [(.text "$equalTo", .int 1)]) .standard =
        .error (.condition explicit) .standard ∧
      NamedApart .equalTo bare explicit := by
  have hrequest : Requests (.int 1) (.implied .equalTo) (.int 1) :=
    .literal (.scalar (.int 1)) fun _ ↦ nofun
  have hentry : ∃ t, entryCheck (.text "qb") (.text "e.a") = .ok t := ⟨.queryBuilder, rfl⟩
  obtain ⟨bare, explicit, hbare, hexplicit, -, -, hapart⟩ :=
    (bare_condition_compiles_like_spelledOut hrequest (.text "qb") (.text "e.a") .standard).2
      (by decide : Operator.equalTo ∉ [Operator.gt]) hentry
  exact ⟨bare, explicit, hrequest, hbare, hexplicit, hapart⟩

theorem message_of_suggestions_eq_nil {known : List String} {request : OperatorRequest}
    (h : ConditionFault.suggestions known request = []) :
    (ConditionFault.unknownOperator request known).message =
      "INVALID_CONDITION_OPERATOR" ++ " " ++ request.text := by
  change "INVALID_CONDITION_OPERATOR" ++ " " ++ request.text ++
    (if (ConditionFault.suggestions known request).isEmpty then "" else ". Did you mean: " ++
      String.intercalate ", " (ConditionFault.suggestions known request) ++ "?") = _
  rw [h]
  exact String.append_empty

/-- The faults for a bare number and for the same number under its operator do not have the same
message. -/
theorem bare_condition_has_another_message :
    ∃ bare explicit : ConditionFault,
      compile [.gt] (.text "qb") (.text "e.a") (.int 1) .standard =
        .error (.condition bare) .standard ∧
      compile [.gt] (.text "qb") (.text "e.a") (.dict [(.text "$equalTo", .int 1)]) .standard =
        .error (.condition explicit) .standard ∧
      bare.message = "INVALID_CONDITION_OPERATOR ConditionOperator.EQUAL_TO" ∧
      explicit.message = "INVALID_CONDITION_OPERATOR $equalTo" := by
  have hfar : Similarity.closest "$equalTo" ["$gt"] = [] := by
    have hscores : (["$gt"].map (Similarity.Scored.ofWords "$equalTo")).filter
        Similarity.Scored.close = [] := by decide
    rw [Similarity.closest, hscores]
    simp
  have hbare : ConditionFault.suggestions ["$gt"] (.implied .equalTo) = [] := hfar
  have hexplicit : ConditionFault.suggestions ["$gt"] (.token (.text "$equalTo")) = [] := hfar
  refine ⟨.unknownOperator (.implied .equalTo) ["$gt"],
    .unknownOperator (.token (.text "$equalTo")) ["$gt"], rfl, rfl, ?_, ?_⟩
  · rw [message_of_suggestions_eq_nil hbare]
    decide
  · rw [message_of_suggestions_eq_nil hexplicit]
    decide

end Criteria
