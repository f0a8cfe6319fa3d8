import Criteria.Memory.Filter
import Criteria.Proofs.Language

/-!
# Missing values

A path of which some step is not there, or leads to the missing value, resolves to the missing
value, and no other path does, whatever attributes there are.  Whatever compiles to an abstract
operator can be evaluated on a missing value, and only the null check is satisfied by it.
-/

namespace Criteria.Memory

/-! ## Paths that lead nowhere -/

section Paths

variable {attribute? : Value → String → Option Value}

/-- What a value holds under one part of a path.  The missing value holds nothing. -/
def child? (attribute? : Value → String → Option Value) (v : Value) (part : String) :
    Option Value :=
  match v with
  | .null => none
  | .dict entries => Value.lookup? entries (.text part)
  | v => attribute? v part

/-- Some step of a path is not there, or is a step from or to the missing value. -/
inductive LeadsNowhere (attribute? : Value → String → Option Value) :
    Value → List String → Prop where
  | null (parts : List String) : LeadsNowhere attribute? .null parts
  | absent {v : Value} {part : String} (h : child? attribute? v part = none)
      (rest : List String) : LeadsNowhere attribute? v (part :: rest)
  | step {v w : Value} {part : String} {rest : List String}
      (h : child? attribute? v part = some w) (hrest : LeadsNowhere attribute? w rest) :
      LeadsNowhere attribute? v (part :: rest)

theorem stepInto_eq (v : Value) (part : String) :
    stepInto attribute? v part = (child? attribute? v part).getD .null := by
  cases v <;> rfl

theorem leadsNowhere_cons_iff {v : Value} {part : String} {rest : List String} :
    LeadsNowhere attribute? v (part :: rest) ↔
      LeadsNowhere attribute? (stepInto attribute? v part) rest := by
  rw [stepInto_eq]
  constructor
  · intro h
    cases h with
    | null => exact .null rest
    | absent h =>
        rw [h]
        exact .null rest
    | step h hrest =>
        rw [h]
        exact hrest
  · intro h
    cases hchild : child? attribute? v part with
    | none => exact .absent hchild rest
    | some w =>
        rw [hchild] at h
        exact .step hchild h

theorem foldl_stepInto_eq_null_iff {v : Value} {parts : List String} :
    parts.foldl (stepInto attribute?) v = .null ↔ LeadsNowhere attribute? v parts := by
  induction parts generalizing v with
  | nil =>
      constructor
      · rintro rfl
        exact .null []
      · rintro ⟨⟩
        rfl
  | cons part rest ih => rw [List.foldl_cons, ih, leadsNowhere_cons_iff]

end Paths

/-- A path of a candidate leads nowhere. -/
def Candidate.Lacks (c : Candidate) (path : String) : Prop :=
  LeadsNowhere c.attribute? c.value (pathParts path.toList)

theorem resolveField_eq_null_iff {c : Candidate} {path : String} :
    resolveField c path = .null ↔ c.Lacks path :=
  foldl_stepInto_eq_null_iff

/-! ## Operators on a missing value -/

/-- A criterion becomes an operator that a missing value does not satisfy, with a negation in it or
around it just as without one. -/
theorem evaluate_ofCriterion_null {o : Operator} {operand : Value} {c : Criterion}
    (h : o.criterion? operand = some c) (ctx : BindContext) :
    evaluate Registry.full (.ofCriterion ctx o c) .null = .ok false := by
  -- Only the operator tells where a negation stands, and what evaluates a raw operator.
  cases o <;> obtain ⟨_, -, rfl⟩ := Option.map_eq_some_iff.mp h <;> rfl

theorem evaluate_nullCheck_null (s : Sentinel) :
    evaluate Registry.full (.negatedIf (decide (s = .isNotNull)) .isNull) .null =
      .ok (decide (s = .isNull)) := by
  cases s <;> rfl

/-- Where a path leads nowhere, every condition that compiles to an operator can be evaluated, and
it is satisfied if it is the bare null check and by nothing else. -/
theorem missing_value_satisfies_only_null_check {registry : Criteria.Registry}
    {fieldAlias condition : Value} {op : FindOperator} {ids ids' : IdSource}
    (hop : compileFind registry fieldAlias condition ids = .ok op ids') {candidate : Candidate}
    {path : String} (hpath : candidate.Lacks path) :
    ∃ satisfied, evaluate Registry.full op (resolveField candidate path) = .ok satisfied ∧
      (satisfied = true ↔ condition = .text "$isNull") := by
  rw [resolveField_eq_null_iff.mpr hpath]
  obtain ⟨a, ha, rfl, -⟩ := compileFind_eq_ok_iff.mp hop
  rcases sentinel_or_criterion_of_admission ha with
    ⟨s, rfl, rfl⟩ | ⟨request, operand, o, c, hrequest, hc, rfl⟩
  · refine ⟨_, evaluate_nullCheck_null s, ?_⟩
    cases s <;> simp [Sentinel.token]
  · refine ⟨false, evaluate_ofCriterion_null hc _, ?_⟩
    exact ⟨nofun, fun hsentinel ↦ absurd hsentinel (hrequest.ne_sentinel .isNull)⟩

/-- A negated search and the null check, on a path that leads to a date, which has no such part. -/
theorem missing_value_satisfies_only_null_check_search :
    ∃ (candidate : Candidate) (condition : Value) (op check : FindOperator) (ids ids' : IdSource),
      candidate = .plain (.dict [(.text "a", .record [("b", .date ⟨1990, 5, 17⟩)])]) ∧
      condition = .dict [(.text "$notRegex", .text "x")] ∧
      resolveField candidate "a.b.year" = .int 1990 ∧ candidate.Lacks "a.b.hour" ∧
      compileFind Criteria.Registry.full (.text "a.b.hour") condition .standard = .ok op ids ∧
      evaluate Registry.full op (resolveField candidate "a.b.hour") = .ok false ∧
      compileFind Criteria.Registry.full (.text "a.b.hour") (.text "$isNull") .standard =
        .ok check ids' ∧
      evaluate Registry.full check (resolveField candidate "a.b.hour") = .ok true := by
  have hpath : (Candidate.plain
      (.dict [(.text "a", .record [("b", .date ⟨1990, 5, 17⟩)])])).Lacks "a.b.hour" :=
    .step rfl (.step rfl (.absent rfl []))
  obtain ⟨op, ids, hop⟩ : ∃ op ids, compileFind Criteria.Registry.full (.text "a.b.hour")
      (.dict [(.text "$notRegex", .text "x")]) .standard = .ok op ids := ⟨_, _, rfl⟩
  obtain ⟨check, ids', hcheck⟩ : ∃ check ids', compileFind Criteria.Registry.full
      (.text "a.b.hour") (.text "$isNull") .standard = .ok check ids' := ⟨_, _, rfl⟩
  obtain ⟨satisfied, heval, hiff⟩ := missing_value_satisfies_only_null_check hop hpath
  obtain ⟨checked, hevalCheck, hiffCheck⟩ := missing_value_satisfies_only_null_check hcheck hpath
  obtain rfl : satisfied = false := Bool.eq_false_iff.mpr fun h ↦ nomatch hiff.mp h
  obtain rfl : checked = true := hiffCheck.mpr rfl
  exact ⟨_, _, op, check, ids, ids', rfl, rfl, rfl, hpath, hop, heval, hcheck, hevalCheck⟩

end Criteria.Memory
