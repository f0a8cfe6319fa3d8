import Criteria.Proofs.Checks
import Criteria.Proofs.Negation

/-!
# Operators and their complements

Some operators come in pairs of an operator and its negation.  Both read their operands in the same
way, so both accept the same ones.  Evaluated on a value that is there, one of them is true just
when the other is not, unless both fail alike; a missing value satisfies neither.
-/

namespace Criteria

open Memory (evaluate inRange liked searched)

namespace Operator

/-- The negation of an operator that has one. -/
def complement? : Operator → Option Operator
  | isIn => some notIn
  | between => some notBetween
  | equalTo => some notEqualTo
  | contains => some notContains
  | iContains => some notIContains
  | startsWith => some notStartsWith
  | endsWith => some notEndsWith
  | regex => some notRegex
  | regexi => some notRegexi
  | _ => none

/-- The condition object of an operator with an operand. -/
def condition (o : Operator) (operand : Value) : Value := .dict [(.text o.token, operand)]

end Operator

namespace Criterion

/-- What a criterion looks for in a value that is there, and whether it is negated, if it is of a
kind that can be. -/
def search? : Criterion → Option ((Value → Except Fault Bool) × Bool)
  | membership negated items => some (fun field ↦ Fault.ofVerdict (field.membership items), negated)
  | equality negated value => some (fun field ↦ Fault.ofVerdict (field.equality value), negated)
  | range negated low high => some (inRange low high, negated)
  | pattern placement ignoreCase negated text =>
    some (liked ignoreCase (.text (placement.pattern text)), negated)
  | regex ignoreCase negated text => some (searched ignoreCase false (.text text), negated)
  | _ => none

theorem exists_fragment_of_search? {c : Criterion} {test : Value → Except Fault Bool}
    {negated : Bool} (h : c.search? = some (test, negated)) (ctx : BindContext) :
    ∃ f, c.fragment ctx = .ok f := by
  cases c with
  | document relation operand json => cases h
  | _ => exact ⟨_, rfl⟩

end Criterion

/-! ## Evaluating what can be negated -/

namespace Memory

/-- A negation around an operator that is no null check keeps a missing value out. -/
theorem evaluate_negatedIf {op : FindOperator} {field : Value} {outcome : Except Fault Bool}
    (hop : isNullCheck op = false)
    (houtcome : evaluate Registry.full op field = unlessNull field outcome) (negated : Bool) :
    evaluate Registry.full (.negatedIf negated op) field =
      unlessNull field (outcome.map (· != negated)) := by
  cases negated with
  | false =>
      have hsame : outcome.map (· != false) = outcome := by
        cases outcome <;> simp [Except.map]
      rw [hsame]
      exact houtcome
  | true =>
      have hflip : outcome.map (· != true) = outcome.map (!·) := by
        cases outcome <;> simp [Except.map]
      have hnot : evaluate Registry.full (.negatedIf true op) field =
          if field.isNull && !isNullCheck op then .ok false
            else (evaluate Registry.full op field).map (!·) := evaluate_not Registry.full op field
      rw [hnot, hop, houtcome, hflip, unlessNull, unlessNull]
      cases field.isNull <;> rfl

theorem searched_eq (ignoreCase negated : Bool) (pattern field : Value) :
    searched ignoreCase negated pattern field =
      (searched ignoreCase false pattern field).map (· != negated) := by
  rw [searched, searched, onTexts, onTexts]
  split
  · next s t _ _ =>
      rw [searchedIn, searchedIn]
      cases Regex.read (if ignoreCase then [.ignoreCase] else []) s with
      | ok p => simp [Except.map]
      | error fault => rfl
  · rfl

/-- An operator for regular expressions has its negation in itself, which its token tells. -/
theorem evaluate_regex {o : Operator} {operand : Value} {ignoreCase negated : Bool} {text : String}
    (h : o.criterion? operand = some (.regex ignoreCase negated text)) (ctx : BindContext)
    (field : Value) :
    evaluate Registry.full (.ofCriterion ctx o (.regex ignoreCase negated text)) field =
      unlessNull field (searched ignoreCase negated (.text text) field) := by
  cases o <;> obtain ⟨_, -, ⟨⟩⟩ := Option.map_eq_some_iff.mp h <;> rfl

/-- Whether its negation is around it or in it, an operator that can be negated looks for the same
in a value that is there, and turns the outcome round. -/
theorem evaluate_of_search? {o : Operator} {operand : Value} {c : Criterion}
    {test : Value → Except Fault Bool} {negated : Bool} (hc : o.criterion? operand = some c)
    (h : c.search? = some (test, negated)) (ctx : BindContext) (field : Value) :
    evaluate Registry.full (.ofCriterion ctx o c) field =
      unlessNull field ((test field).map (· != negated)) := by
  cases c with
  | membership negated items =>
      cases h
      exact evaluate_negatedIf rfl rfl negated
  | equality negated value =>
      cases h
      exact evaluate_negatedIf rfl rfl negated
  | range negated low high =>
      cases h
      exact evaluate_negatedIf rfl rfl negated
  | pattern placement ignoreCase negated text =>
      cases h
      cases ignoreCase <;> exact evaluate_negatedIf rfl rfl negated
  | regex ignoreCase negated text =>
      cases h
      rw [evaluate_regex hc, searched_eq]
  | _ => cases h

end Memory

/-! ## Pairs -/

namespace Operator

/-- Two ways of reading one operand, as a criterion and as its negation. -/
theorem search?_of_map {α : Type} (operand? : Option α) {f g : α → Criterion}
    {test : α → Value → Except Fault Bool} (hf : ∀ a, (f a).search? = some (test a, false))
    (hg : ∀ a, (g a).search? = some (test a, true)) :
    operand?.map f = none ∧ operand?.map g = none ∨
      ∃ c d test, operand?.map f = some c ∧ operand?.map g = some d ∧
        c.search? = some (test, false) ∧ d.search? = some (test, true) := by
  cases operand? with
  | none => exact Or.inl ⟨rfl, rfl⟩
  | some a => exact Or.inr ⟨f a, g a, test a, rfl, rfl, hf a, hg a⟩

/-- The operators of a pair make criteria of the same operands, which look for the same, once as it
is and once negated. -/
theorem search?_of_complement? {o o' : Operator} (h : o.complement? = some o') (operand : Value) :
    o.criterion? operand = none ∧ o'.criterion? operand = none ∨
      ∃ c d test, o.criterion? operand = some c ∧ o'.criterion? operand = some d ∧
        c.search? = some (test, false) ∧ d.search? = some (test, true) := by
  cases o <;> cases h <;> exact search?_of_map _ (fun _ ↦ rfl) (fun _ ↦ rfl)

theorem mem_full (o : Operator) : o ∈ Registry.full := by
  cases o <;> decide

/-- What is admitted of an operator and an operand that is there. -/
theorem exists_admission_condition_iff {o : Operator} {operand : Value} :
    (∃ a, admission Registry.full (o.condition operand) = .ok a) ↔
      operand ≠ .null ∧ ∃ c, o.criterion? operand = some c := by
  simp only [condition, admission_object_eq_ok_iff]
  constructor
  · rintro ⟨a, hnull, -, c, hc, -⟩
    exact ⟨hnull, c, hc⟩
  · rintro ⟨hnull, c, hc⟩
    exact ⟨_, hnull, o.mem_full, c, hc, rfl⟩

theorem exists_compile_condition_iff {o : Operator} {operand : Value}
    (h : ∀ c, o.criterion? operand = some c → (c.search?).isSome) (target fieldAlias : Value)
    (ids : IdSource) :
    (∃ out left, compile Registry.full target fieldAlias (o.condition operand) ids = .ok out left) ↔
      (∃ t, entryCheck target fieldAlias = .ok t) ∧ operand ≠ .null ∧
        ∃ c, o.criterion? operand = some c := by
  rw [exists_compile_iff, exists_admission_condition_iff]
  intro a ha
  obtain ⟨-, -, c, hc, rfl⟩ := admission_object_eq_ok_iff.mp ha
  obtain ⟨⟨test, negated⟩, hsearch⟩ := Option.isSome_iff_exists.mp (h c hc)
  exact Criterion.exists_fragment_of_search? hsearch _

theorem exists_compile_complement_iff {o o' : Operator} (h : o.complement? = some o')
    (operand target fieldAlias : Value) (ids : IdSource) :
    (∃ out left, compile Registry.full target fieldAlias (o.condition operand) ids = .ok out left) ↔
      ∃ out left, compile Registry.full target fieldAlias (o'.condition operand) ids =
        .ok out left := by
  rcases search?_of_complement? h operand with
    ⟨hnone, hnone'⟩ | ⟨c, d, test, hc, hd, hsearch, hsearch'⟩
  · rw [exists_compile_condition_iff (by simp [hnone]),
      exists_compile_condition_iff (by simp [hnone'])]
    simp [hnone, hnone']
  · rw [exists_compile_condition_iff (by simp [hc, hsearch]),
      exists_compile_condition_iff (by simp [hd, hsearch'])]
    simp [hc, hd]

/-- An operator that is compiled from a condition object has the criterion of its operand. -/
theorem exists_criterion_of_compileFind {o : Operator} {operand fieldAlias : Value}
    {op : FindOperator} {ids left : IdSource}
    (h : compileFind Registry.full fieldAlias (o.condition operand) ids = .ok op left) :
    ∃ c ctx, o.criterion? operand = some c ∧ op = .ofCriterion ctx o c := by
  obtain ⟨a, ha, rfl, -⟩ := compileFind_eq_ok_iff.mp h
  obtain ⟨-, -, c, hc, rfl⟩ := admission_object_eq_ok_iff.mp ha
  exact ⟨c, _, hc, rfl⟩

theorem admission_condition {o : Operator} {operand : Value} {c : Criterion}
    (hc : o.criterion? operand = some c) (hoperand : operand ≠ .null) :
    admission Registry.full (o.condition operand) = .ok (.criterion o c) :=
  admission_object_eq_ok_iff.mpr ⟨hoperand, o.mem_full, c, hc, rfl⟩

/-- An operator that makes a criterion of its operand is compiled to what the criterion says, and
one identifier is drawn. -/
theorem compileFind_condition {o : Operator} {operand : Value} {c : Criterion}
    (hc : o.criterion? operand = some c) (hoperand : operand ≠ .null) (fieldAlias : Value)
    (ids : IdSource) :
    compileFind Registry.full fieldAlias (o.condition operand) ids =
      .ok (.ofCriterion (.create ids.current o.name fieldAlias) o c) ids.advance :=
  compileFind_eq_ok_iff.mpr ⟨_, admission_condition hc hoperand, rfl, rfl⟩

/-- An operator and its negation accept the same operands, for each target and under each alias.
Compiled to abstract operators, a missing value satisfies neither of them.  On a value that is there
both fail with the same fault, or exactly one of them is satisfied. -/
theorem complement_is_exact {o o' : Operator} (h : o.complement? = some o') (operand : Value) :
    (∀ target fieldAlias ids,
      (∃ out left, compile Registry.full target fieldAlias (o.condition operand) ids =
        .ok out left) ↔
      ∃ out left, compile Registry.full target fieldAlias (o'.condition operand) ids =
        .ok out left) ∧
    ∀ fieldAlias fieldAlias' ids ids' op op' left left',
      compileFind Registry.full fieldAlias (o.condition operand) ids = .ok op left →
      compileFind Registry.full fieldAlias' (o'.condition operand) ids' = .ok op' left' →
      ∀ field : Value,
        (field.isNull = true → evaluate Memory.Registry.full op field = .ok false ∧
          evaluate Memory.Registry.full op' field = .ok false) ∧
        (field.isNull = false →
          (∃ fault, evaluate Memory.Registry.full op field = .error fault ∧
            evaluate Memory.Registry.full op' field = .error fault) ∨
          ∃ b, evaluate Memory.Registry.full op field = .ok b ∧
            evaluate Memory.Registry.full op' field = .ok (!b)) := by
  refine ⟨exists_compile_complement_iff h operand, ?_⟩
  intro fieldAlias fieldAlias' ids ids' op op' left left' hop hop' field
  obtain ⟨c, ctx, hc, rfl⟩ := exists_criterion_of_compileFind hop
  obtain ⟨d, ctx', hd, rfl⟩ := exists_criterion_of_compileFind hop'
  obtain ⟨c', d', test, hc', hd', hsearch, hsearch'⟩ :=
    (search?_of_complement? h operand).resolve_left fun hnone ↦ by simp [hnone.1] at hc
  obtain rfl : c' = c := Option.some.inj (hc'.symm.trans hc)
  obtain rfl : d' = d := Option.some.inj (hd'.symm.trans hd)
  rw [Memory.evaluate_of_search? hc hsearch, Memory.evaluate_of_search? hd hsearch']
  constructor
  · intro hnull
    rw [Memory.unlessNull_of_isNull hnull, Memory.unlessNull_of_isNull hnull]
    exact ⟨rfl, rfl⟩
  · intro hnull
    rw [Memory.unlessNull_of_isNull_eq_false hnull, Memory.unlessNull_of_isNull_eq_false hnull]
    cases test field with
    | error fault => exact Or.inl ⟨fault, rfl, rfl⟩
    | ok b => exact Or.inr ⟨b, by simp [Except.map], by simp [Except.map]⟩

/-- A range and its negation, on a number, on a missing value and on a text, which cannot be
compared with the ends of the range. -/
theorem complement_is_exact_between :
    ∃ (op op' : FindOperator) (left left' : IdSource) (fault : Fault),
      between.complement? = some notBetween ∧
      compileFind Registry.full (.text "age") (between.condition (.list [.int 18, .int 65]))
        .standard = .ok op left ∧
      compileFind Registry.full (.text "age") (notBetween.condition (.list [.int 18, .int 65]))
        .standard = .ok op' left' ∧
      evaluate Memory.Registry.full op .null = .ok false ∧
      evaluate Memory.Registry.full op' .null = .ok false ∧
      evaluate Memory.Registry.full op (.int 30) = .ok true ∧
      evaluate Memory.Registry.full op' (.int 30) = .ok false ∧
      evaluate Memory.Registry.full op (.text "x") = .error fault ∧
      evaluate Memory.Registry.full op' (.text "x") = .error fault := by
  obtain ⟨op, left, fault, hop, htrue, hfault⟩ :
      ∃ (op : FindOperator) (left : IdSource) (fault : Fault),
        compileFind Registry.full (.text "age") (between.condition (.list [.int 18, .int 65]))
          .standard = .ok op left ∧
        evaluate Memory.Registry.full op (.int 30) = .ok true ∧
        evaluate Memory.Registry.full op (.text "x") = .error fault := ⟨_, _, _, rfl, rfl, rfl⟩
  have hpair : between.complement? = some notBetween := rfl
  obtain ⟨-, hevaluates⟩ := complement_is_exact hpair (.list [.int 18, .int 65])
  obtain ⟨op', left', hop'⟩ : ∃ op' left', compileFind Registry.full (.text "age")
      (notBetween.condition (.list [.int 18, .int 65])) .standard = .ok op' left' := ⟨_, _, rfl⟩
  have hfield := hevaluates _ _ _ _ _ _ _ _ hop hop'
  obtain ⟨hnull, hnull'⟩ := (hfield .null).1 rfl
  refine ⟨op, op', left, left', fault, hpair, hop, hop', hnull, hnull', htrue, ?_, hfault, ?_⟩
  · obtain ⟨_, herror, -⟩ | ⟨b, hb, hb'⟩ := (hfield (.int 30)).2 rfl
    · rw [htrue] at herror
      cases herror
    · rw [htrue] at hb
      cases hb
      exact hb'
  · obtain ⟨_, herror, herror'⟩ | ⟨b, hb, -⟩ := (hfield (.text "x")).2 rfl
    · rw [hfault] at herror
      cases herror
      exact herror'
    · rw [hfault] at hb
      cases hb

end Operator

end Criteria
