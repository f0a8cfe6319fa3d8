import Criteria.Memory.Evaluator
import Criteria.Sql.Test

/-!
# Negation and missing values

A query reads an operator with three truth values: on a missing value a null check is true, every
other comparison is unknown, and negation keeps what is unknown.  Evaluating an operator gives
whether that reading is true, but for one case.  It looks for a null check right under a negation
and no deeper, so on a missing value a null check that is negated twice, or four times, is lost.
-/

namespace Criteria

/-- The outcome of a comparison with three truth values: unknown when there is no value. -/
def known (field : Value) (outcome : Except Fault Bool) : Except Fault (Option Bool) :=
  if field.isNull then .ok none else outcome.map some

/-- The negation of a truth value that may be unknown. -/
def opposite : Option Bool → Option Bool := Option.map (!·)

namespace FindOperator

/-- An operator without the negations around it. -/
def core : FindOperator → FindOperator
  | not op => op.core
  | op => op

/-- How many negations there are around an operator. -/
def negations : FindOperator → Nat
  | not op => op.negations + 1
  | _ => 0

/-- Whether an operator is made of native ones alone. -/
def IsNative (op : FindOperator) : Prop := op.core.kind ≠ .raw

/-- A native comparison with a value that is there. -/
def compared : FindOperator → Value → Except Fault Bool
  | equal value, field => Fault.ofVerdict (field.equality value)
  | isIn values, field => Fault.ofVerdict (field.membership values)
  | moreThan value, field => field.compareBy .gt value
  | moreThanOrEqual value, field => field.compareBy .ge value
  | lessThan value, field => field.compareBy .lt value
  | lessThanOrEqual value, field => field.compareBy .le value
  | between low high, field => Memory.inRange low high field
  | like pattern, field => Memory.liked false pattern field
  | ilike pattern, field => Memory.liked true pattern field
  | op, _ => .error (.unsupportedKind .memory op.kind)

/-- How a query reads an operator on the value of a field. -/
def reading : FindOperator → Value → Except Fault (Option Bool)
  | not op, field => (op.reading field).map opposite
  | isNull, field => .ok (some field.isNull)
  | op, field => known field (op.compared field)

/-- The operands of an operator, each on its own. -/
def operands : FindOperator → List Value
  | equal v | moreThan v | moreThanOrEqual v | lessThan v | lessThanOrEqual v | like v | ilike v
  | raw v _ _ _ => [v]
  | isIn values => values
  | between low high => [low, high]
  | isNull => []
  | not op => op.operands

/-- A null check that an evaluation does not see: on a missing value, and negated an even number of
times. -/
def IsLost (op : FindOperator) (field : Value) : Prop :=
  field.isNull = true ∧ Memory.isNullCheck op.core = true ∧ op.negations ≠ 0 ∧ op.negations % 2 = 0

theorem operands_core (op : FindOperator) : op.core.operands = op.operands := by
  induction op with
  | not op ih => exact ih
  | _ => rfl

/-- What does not change with two more negations depends on the operator inside them and on whether
their number is odd. -/
theorem eq_of_cancel {β : Type} {f : FindOperator → β} (hcancel : ∀ op, f (.not (.not op)) = f op)
    (op : FindOperator) : f op = f (if op.negations % 2 = 1 then .not op.core else op.core) := by
  -- Two negations are taken off at once, so the operator and its negation are carried together.
  have hpair : f op = f (if op.negations % 2 = 1 then .not op.core else op.core) ∧
      f (.not op) = f (if (op.negations + 1) % 2 = 1 then .not op.core else op.core) := by
    induction op with
    | not op ih =>
        obtain ⟨hinner, houter⟩ := ih
        have hparity : (op.negations + 1 + 1) % 2 = op.negations % 2 := by omega
        refine ⟨houter, ?_⟩
        rw [hcancel, hinner, negations, core, hparity]
    | _ => exact ⟨rfl, rfl⟩
  exact hpair.1

theorem core_core (op : FindOperator) : op.core.core = op.core := by
  induction op with
  | not op ih => exact ih
  | _ => rfl

theorem negations_core (op : FindOperator) : op.core.negations = 0 := by
  induction op with
  | not op ih => exact ih
  | _ => rfl

theorem IsNative.core {op : FindOperator} (h : op.IsNative) : op.core.IsNative := by
  rw [IsNative, core_core]
  exact h

theorem isNullCheck_eq (op : FindOperator) :
    Memory.isNullCheck op = (Memory.isNullCheck op.core && decide (op.negations = 0)) := by
  cases op with
  | not op => rw [negations]; simp [Memory.isNullCheck]
  | _ => rfl

theorem opposite_opposite (truth : Option Bool) : opposite (opposite truth) = truth := by
  obtain _ | b := truth
  · rfl
  · cases b <;> rfl

theorem map_opposite_map_opposite (x : Except Fault (Option Bool)) :
    (x.map opposite).map opposite = x := by
  cases x with
  | error fault => rfl
  | ok truth => exact congrArg Except.ok (opposite_opposite truth)

/-- An even number of negations says what none says. -/
theorem reading_eq (op : FindOperator) (field : Value) :
    op.reading field = if op.negations % 2 = 1 then (op.core.reading field).map opposite
      else op.core.reading field := by
  have hcancel : ∀ op : FindOperator, (not (not op)).reading field = op.reading field :=
    fun op ↦ map_opposite_map_opposite _
  rw [eq_of_cancel (f := fun op ↦ op.reading field) hcancel op]
  split <;> rfl

/-- On a missing value only a null check is known. -/
theorem reading_null (op : FindOperator) : op.reading .null =
    .ok (if Memory.isNullCheck op.core then some (decide (op.negations % 2 = 0)) else none) := by
  have hcore : op.core.reading .null =
      .ok (if Memory.isNullCheck op.core then some true else none) := by
    induction op with
    | not op ih => exact ih
    | _ => rfl
  rw [reading_eq, hcore]
  by_cases hodd : op.negations % 2 = 1
  · have heven : ¬op.negations % 2 = 0 := by omega
    rw [if_pos hodd, decide_eq_false heven]
    cases Memory.isNullCheck op.core <;> rfl
  · have heven : op.negations % 2 = 0 := by omega
    rw [if_neg hodd, decide_eq_true heven]

end FindOperator

/-! ## Evaluating -/

namespace Memory

open FindOperator (IsLost reading opposite_opposite)

theorem evaluate_not (r : Registry) (op : FindOperator) (field : Value) :
    evaluate r (.not op) field = if field.isNull && !isNullCheck op then .ok false
      else (evaluate r op field).map (!·) := rfl

/-- A missing value passes the null check and nothing else. -/
theorem evaluate_null {op : FindOperator} (h : op.IsNative) :
    evaluate Registry.full op .null = .ok (isNullCheck op) := by
  cases op with
  | not op =>
      rw [evaluate_not]
      cases op with
      | isNull => rfl
      | _ => rfl
  | raw value template parameters origin => exact absurd rfl h
  | _ => rfl

/-- On a value that is there the three truth values are two, and the evaluation has them. -/
theorem evaluate_of_isNull_eq_false {op : FindOperator} (h : op.IsNative) {field : Value}
    (hfield : field.isNull = false) : ∃ outcome : Except Fault Bool,
      evaluate Registry.full op field = outcome ∧ op.reading field = outcome.map some := by
  have hknown : ∀ outcome, known field outcome = outcome.map some := fun outcome ↦ by
    rw [known, hfield]
    rfl
  have hthere := unlessNull_of_isNull_eq_false hfield
  induction op with
  | not op ih =>
      obtain ⟨outcome, hevaluate, hreading⟩ := ih h
      refine ⟨outcome.map (!·), ?_, ?_⟩
      · rw [evaluate_not, hfield, hevaluate]
        rfl
      · rw [reading, hreading]
        cases outcome <;> rfl
  | raw value template parameters origin => exact absurd rfl h
  | isNull => exact ⟨.ok field.isNull, rfl, rfl⟩
  | _ => exact ⟨_, hthere _, hknown _⟩

theorem evaluate_not_not {op : FindOperator} (h : op.IsNative) {field : Value}
    (hfield : field.isNull = true → isNullCheck op = false) :
    evaluate Registry.full (.not (.not op)) field = evaluate Registry.full op field := by
  cases hnull : field.isNull with
  | true =>
      obtain rfl := Value.isNull_iff.mp hnull
      have hdouble : evaluate Registry.full (.not (.not op)) .null = .ok false := evaluate_null h
      rw [hdouble, evaluate_null h, hfield hnull]
  | false =>
      rw [evaluate_not, evaluate_not, hnull]
      cases evaluate Registry.full op field with
      | error fault => rfl
      | ok b => cases b <;> rfl

end Memory

/-! ## Tests of columns -/

namespace Sql

open FindOperator (map_opposite_map_opposite)

/-- What a query finds when it checks the value of a column. -/
def Check.truth : Check → Value → Except Fault (Option Bool)
  | equal value, field => known field (Fault.ofVerdict (field.equality value))
  | isConstant b, field => known field (Fault.ofVerdict (field.equality (.bool b)))
  | isNull, field => .ok (some field.isNull)
  | order c value, field => known field (field.compareBy c value)
  | isIn values, field => known field (Fault.ofVerdict (field.membership values))
  | between low high, field => known field (Memory.inRange low high field)
  | like pattern, field => known field (Memory.liked false pattern field)
  | ilike pattern, field => known field (Memory.liked true pattern field)

def Test.truth (t : Test) (field : Value) : Except Fault (Option Bool) :=
  if t.negated then (t.check.truth field).map opposite else t.check.truth field

theorem Check.withOperand_eq_ok {v : Value} {check check' : Check}
    (h : withOperand v check = .ok check') : check' = check := by
  rw [withOperand] at h
  split at h
  · cases h
  · exact (Except.ok.inj h).symm

theorem Check.truth_ofOperator {op : FindOperator} {check : Check}
    (hoperands : ∀ v ∈ op.operands, v.isNull = false) (h : ofOperator op = .ok check)
    (field : Value) : check.truth field = op.reading field := by
  cases op with
  | equal value =>
      have hvalue : value.isNull = false := hoperands value List.mem_cons_self
      cases value with
      | null => cases hvalue
      | _ =>
          cases h
          rfl
  | isIn values =>
      cases h
      rfl
  | between low high =>
      cases h
      rfl
  | isNull =>
      cases h
      rfl
  | not op => cases h
  | raw value template parameters origin => cases h
  | _ =>
      obtain rfl := withOperand_eq_ok h
      rfl

theorem Atom.ofOperator_of_negations_eq_zero {op : FindOperator} (h : op.IsNative)
    (hnone : op.negations = 0) (column : Column) (fieldAlias : Option String) :
    ofOperator allKinds column fieldAlias op =
      ((Check.ofOperator op).map fun check ↦ .test ⟨column, false, check⟩) ∧
    ofOperator allKinds column fieldAlias (.not op) =
      (Check.ofOperator op).map fun check ↦ .test ⟨column, true, check⟩ := by
  cases op with
  | not op => cases hnone
  | raw value template parameters origin => exact absurd rfl h
  | _ =>
      simp only [ofOperator, allKinds]
      constructor <;> cases Check.ofOperator _ <;> rfl

/-- Negations of a native operator are counted: the test is that of the operator inside them, and
it is negated when their number is odd. -/
theorem Atom.ofOperator_eq {op : FindOperator} (h : op.IsNative) (column : Column)
    (fieldAlias : Option String) :
    ofOperator allKinds column fieldAlias op = (Check.ofOperator op.core).map fun check ↦
      .test ⟨column, decide (op.negations % 2 = 1), check⟩ := by
  obtain ⟨hplain, hnegated⟩ :=
    ofOperator_of_negations_eq_zero h.core op.negations_core column fieldAlias
  have hcancel : ∀ op, ofOperator allKinds column fieldAlias (.not (.not op)) =
      ofOperator allKinds column fieldAlias op := fun op ↦ by rw [ofOperator]
  rw [FindOperator.eq_of_cancel hcancel op]
  split
  · next hodd => rw [hnegated, decide_eq_true hodd]
  · next hodd => rw [hplain, decide_eq_false hodd]

/-- The test that a native operator becomes has the truth values of its reading. -/
theorem Test.truth_of_ofOperator {op : FindOperator} (h : op.IsNative)
    (hoperands : ∀ v ∈ op.operands, v.isNull = false) {column : Column}
    {fieldAlias : Option String} {t : Test}
    (ht : Atom.ofOperator Atom.allKinds column fieldAlias op = .ok (.test t)) (field : Value) :
    t.truth field = op.reading field := by
  rw [Atom.ofOperator_eq h] at ht
  cases hcheck : Check.ofOperator op.core with
  | error fault =>
      rw [hcheck] at ht
      cases ht
  | ok check =>
      rw [hcheck] at ht
      cases ht
      have htruth := Check.truth_ofOperator (op.operands_core ▸ hoperands) hcheck field
      rw [FindOperator.reading_eq, ← htruth, truth]
      by_cases hodd : op.negations % 2 = 1
      · rw [if_pos hodd, if_pos (decide_eq_true hodd)]
      · rw [if_neg hodd, if_neg (by simpa using hodd)]

end Sql

/-- Evaluating a native operator gives whether the query finds it true, with the same faults, unless
a null check is lost on a missing value: then the query finds it true and the evaluation does not.
Two more negations change nothing for the query.  For the evaluation they change nothing but a null
check of a missing value. -/
theorem FindOperator.evaluation_follows_reading {op : FindOperator} (h : op.IsNative)
    (field : Value) :
    (¬op.IsLost field → Memory.evaluate Memory.Registry.full op field =
      (op.reading field).map (· == some true)) ∧
    (op.IsLost field → Memory.evaluate Memory.Registry.full op field = .ok false ∧
      op.reading field = .ok (some true)) ∧
    ((field.isNull = true → Memory.isNullCheck op = false) →
      Memory.evaluate Memory.Registry.full (.not (.not op)) field =
        Memory.evaluate Memory.Registry.full op field) ∧
    (∀ kinds column fieldAlias, Sql.Atom.ofOperator kinds column fieldAlias (.not (.not op)) =
      Sql.Atom.ofOperator kinds column fieldAlias op) ∧
    ∀ column fieldAlias t, (∀ v ∈ op.operands, v.isNull = false) →
      Sql.Atom.ofOperator Sql.Atom.allKinds column fieldAlias op = .ok (.test t) →
        t.truth field = op.reading field := by
  refine ⟨fun hlost ↦ ?_, fun hlost ↦ ?_, fun hfield ↦ Memory.evaluate_not_not h hfield,
    fun kinds column fieldAlias ↦ ?_, fun column fieldAlias t hoperands ht ↦
      Sql.Test.truth_of_ofOperator h hoperands ht field⟩
  · cases hnull : field.isNull with
    | false =>
        obtain ⟨outcome, hevaluate, hreading⟩ := Memory.evaluate_of_isNull_eq_false h hnull
        rw [hevaluate, hreading]
        cases outcome with
        | error fault => rfl
        | ok b => cases b <;> rfl
    | true =>
        obtain rfl := Value.isNull_iff.mp hnull
        rw [Memory.evaluate_null h, reading_null, isNullCheck_eq]
        cases hcore : Memory.isNullCheck op.core with
        | false => rfl
        | true =>
            by_cases hzero : op.negations = 0
            · rw [hzero]
              rfl
            · have hodd : ¬op.negations % 2 = 0 := fun heven ↦ hlost ⟨hnull, hcore, hzero, heven⟩
              rw [decide_eq_false hzero, decide_eq_false hodd]
              rfl
  · obtain ⟨hnull, hcore, hnegations, heven⟩ := hlost
    obtain rfl := Value.isNull_iff.mp hnull
    rw [Memory.evaluate_null h, reading_null, isNullCheck_eq, hcore, decide_eq_false hnegations,
      decide_eq_true heven]
    exact ⟨rfl, rfl⟩
  · rw [Sql.Atom.ofOperator]

/-- A range that is negated twice, on a missing value and on one that is there. -/
theorem FindOperator.evaluation_follows_reading_between :
    ∃ op : FindOperator, op = .not (.not (.between (.int 1) (.int 9))) ∧ op.IsNative ∧
      op.reading .null = .ok none ∧
      Memory.evaluate Memory.Registry.full op .null = .ok false ∧
      op.reading (.int 5) = .ok (some true) ∧
      Memory.evaluate Memory.Registry.full op (.int 5) = .ok true := by
  have hnative : (FindOperator.not (.not (.between (.int 1) (.int 9)))).IsNative := nofun
  refine ⟨_, rfl, hnative, rfl, ?_, rfl, ?_⟩
  · exact (evaluation_follows_reading hnative .null).1 nofun
  · exact (evaluation_follows_reading hnative (.int 5)).1 nofun

/-- A null check that is negated twice: a query finds it true on a missing value, and the evaluation
of the null check itself does, but the evaluation of its double negation does not. -/
theorem FindOperator.isNull_lost :
    Memory.evaluate Memory.Registry.full (.not (.not .isNull)) .null = .ok false ∧
    Memory.evaluate Memory.Registry.full .isNull .null = .ok true ∧
    (FindOperator.not (.not .isNull)).reading .null = .ok (some true) ∧
    Sql.Atom.ofOperator Sql.Atom.allKinds ⟨"person", "city"⟩ none (.not (.not .isNull)) =
      .ok (.test ⟨⟨"person", "city"⟩, false, .isNull⟩) :=
  ⟨rfl, rfl, rfl, rfl⟩

end Criteria
