import Criteria.Proofs.Fragments
import Criteria.Proofs.Replay

/-!
# Operands and the wording of queries

What goes into a statement is a text and the names of its parameters; the operands of conditions
are values of parameters and nothing else.  Two conditions of one outline therefore have one
wording, and so have two trees whose leaves have one outline each: their operands may be of any
length and may hold any signs.
-/

namespace Criteria

/-! ## Outlines -/

/-- A condition without its operands. -/
inductive Outline where
  | operator (token : Value)
  | array
  | sentinel (s : Sentinel)
  | literal

/-- The outline of a condition that has been classified. -/
def Condition.outline : Condition → Outline
  | operator token _ => .operator token
  | array _ => .array
  | sentinel s => .sentinel s
  | literal _ => .literal

/-- The outline of a condition, if it has any shape. -/
def outline? (condition : Value) : Option Outline :=
  (Condition.classify condition).toOption.map Condition.outline

/-- A text with the names of its parameters. -/
structure Wording where
  text : String
  names : List String

def Fragment.wording (f : Fragment) : Wording := ⟨f.query, f.parameters.map (·.1)⟩

/-- The wording of an abstract operator: only a raw one has a text, negated or not. -/
def FindOperator.wording? : FindOperator → Option Wording
  | raw _ template parameters _ => some ⟨template, parameters.map (·.1)⟩
  | not child => child.wording?
  | _ => none

def Compiled.wording? : Compiled → Option Wording
  | fragment f => some f.wording
  | find op => op.wording?

/-! ## Conditions -/

namespace Criterion

/-- The criterion with its operands taken out. -/
def blank : Criterion → Criterion
  | membership negated _ => .membership negated []
  | order comparison _ => .order comparison .null
  | equality negated _ => .equality negated .null
  | range negated _ _ => .range negated .null .null
  | pattern placement ignoreCase negated _ => .pattern placement ignoreCase negated ""
  | regex ignoreCase negated _ => .regex ignoreCase negated ""
  | document relation _ _ => .document relation .null ""
  | hasKey _ => .hasKey ""

/-- What an operator makes of two operands differs in the operands alone. -/
theorem blank_eq_of_criterion? {o : Operator} {operand other : Value} {c d : Criterion}
    (hc : o.criterion? operand = some c) (hd : o.criterion? other = some d) :
    c.blank = d.blank := by
  cases o
  all_goals
    obtain ⟨_, -, rfl⟩ := Option.map_eq_some_iff.mp hc
    obtain ⟨_, -, rfl⟩ := Option.map_eq_some_iff.mp hd
    rfl

theorem map_wording_fragment_blank (ctx : BindContext) (c : Criterion) :
    (c.blank.fragment ctx).map Fragment.wording = (c.fragment ctx).map Fragment.wording := by
  cases c with
  | document relation operand json =>
      simp only [blank, fragment]
      cases Template.fill (rawTemplate relation.symbol (ctx.parameterName none)) ctx.fieldAlias <;>
        rfl
  | _ => rfl

theorem wording?_ofCriterion_blank (ctx : BindContext) (o : Operator) (c : Criterion) :
    (FindOperator.ofCriterion ctx o c.blank).wording? =
      (FindOperator.ofCriterion ctx o c).wording? := by
  cases c with
  | membership negated items => cases negated <;> rfl
  | order comparison value => cases comparison <;> rfl
  | equality negated value => cases negated <;> rfl
  | range negated low high => cases negated <;> rfl
  | pattern placement ignoreCase negated text => cases ignoreCase <;> cases negated <;> rfl
  | regex ignoreCase negated text => rfl
  | document relation operand json => rfl
  | hasKey key => rfl

end Criterion

namespace Admitted

/-- The admitted condition with its operands taken out. -/
def blank : Admitted → Admitted
  | nullCheck negated => .nullCheck negated
  | criterion o c => .criterion o c.blank

theorem idsAfter_blank (a : Admitted) (ids : IdSource) : a.blank.idsAfter ids = a.idsAfter ids := by
  cases a <;> rfl

theorem map_wording_fragment_blank (a : Admitted) (id : String) (fieldAlias : Value) :
    (a.blank.fragment id fieldAlias).map Fragment.wording =
      (a.fragment id fieldAlias).map Fragment.wording := by
  cases a with
  | nullCheck negated => rfl
  | criterion o c => exact c.map_wording_fragment_blank _

theorem wording?_findOperator_blank (a : Admitted) (id : String) (fieldAlias : Value) :
    (a.blank.findOperator id fieldAlias).wording? = (a.findOperator id fieldAlias).wording? := by
  cases a with
  | nullCheck negated => rfl
  | criterion o c => exact c.wording?_ofCriterion_blank _ o

end Admitted

theorem blank_eq_of_operatorAdmission {registry : Registry} {request : OperatorRequest}
    {operand other : Value} {a b : Admitted}
    (ha : operatorAdmission registry request operand = .ok a)
    (hb : operatorAdmission registry request other = .ok b) : a.blank = b.blank := by
  rw [operatorAdmission] at ha hb
  cases hresolve : registry.resolve request with
  | error fault => simp [hresolve] at ha
  | ok o =>
      simp only [hresolve, Operator.criterion] at ha hb
      cases hc : o.criterion? operand with
      | none => simp [hc] at ha
      | some c =>
          cases hd : o.criterion? other with
          | none => simp [hd] at hb
          | some d =>
              obtain rfl : Admitted.criterion o c = a := by simpa [hc] using ha
              obtain rfl : Admitted.criterion o d = b := by simpa [hd] using hb
              exact congrArg (Admitted.criterion o) (Criterion.blank_eq_of_criterion? hc hd)

/-- Conditions of one outline are admitted with the same operator. -/
theorem blank_eq_of_admission {registry : Registry} {condition other : Value} {a b : Admitted}
    (h : outline? condition = outline? other) (ha : admission registry condition = .ok a)
    (hb : admission registry other = .ok b) : a.blank = b.blank := by
  rw [outline?, outline?] at h
  rw [admission] at ha hb
  cases hc : Condition.classify condition with
  | error fault => simp [hc] at ha
  | ok shape =>
      cases hd : Condition.classify other with
      | error fault => simp [hd] at hb
      | ok shape' =>
          have hsame : shape.outline = shape'.outline := by simpa [hc, hd, Except.toOption] using h
          rw [hc] at ha
          rw [hd] at hb
          cases shape with
          | operator token operand =>
              cases shape' with
              | operator token' operand' =>
                  obtain rfl : token = token' := by simpa [Condition.outline] using hsame
                  exact blank_eq_of_operatorAdmission ha hb
              | _ => simp [Condition.outline] at hsame
          | array items =>
              cases shape' with
              | array items' => exact blank_eq_of_operatorAdmission ha hb
              | _ => simp [Condition.outline] at hsame
          | sentinel s =>
              cases shape' with
              | sentinel s' =>
                  obtain rfl : s = s' := by simpa [Condition.outline] using hsame
                  obtain rfl : a = b := Except.ok.inj (ha.symm.trans hb)
                  rfl
              | _ => simp [Condition.outline] at hsame
          | literal value =>
              cases shape' with
              | literal value' => exact blank_eq_of_operatorAdmission ha hb
              | _ => simp [Condition.outline] at hsame

/-! ## Compiling -/

/-- Fragments of conditions of one outline have one wording and draw the same identifiers. -/
theorem wording_eq_of_compileFragment {registry : Registry} {fieldAlias condition other : Value}
    {f g : Fragment} {ids ids₁ ids₂ : IdSource} (h : outline? condition = outline? other)
    (hf : compileFragment registry fieldAlias condition ids = .ok f ids₁)
    (hg : compileFragment registry fieldAlias other ids = .ok g ids₂) :
    f.wording = g.wording ∧ ids₁ = ids₂ := by
  obtain ⟨-, a, ha, hfragment, rfl⟩ := compileFragment_eq_ok_iff.mp hf
  obtain ⟨-, b, hb, hfragment', rfl⟩ := compileFragment_eq_ok_iff.mp hg
  have hblank := blank_eq_of_admission h ha hb
  have hwording : (a.fragment ids.current fieldAlias).map Fragment.wording =
      (b.fragment ids.current fieldAlias).map Fragment.wording := by
    rw [← a.map_wording_fragment_blank, ← b.map_wording_fragment_blank, hblank]
  constructor
  · simpa [hfragment, hfragment', Except.map] using hwording
  · rw [← a.idsAfter_blank, ← b.idsAfter_blank, hblank]

theorem compileFind_eq_ok_iff {registry : Registry} {fieldAlias condition : Value}
    {op : FindOperator} {ids ids' : IdSource} :
    compileFind registry fieldAlias condition ids = .ok op ids' ↔
      ∃ a, admission registry condition = .ok a ∧ op = a.findOperator ids.current fieldAlias ∧
        ids' = a.idsAfter ids := by
  simp only [compileFind, bind_eq_ok_iff, Compiling.ofCheck_eq_ok_iff, Compiling.drawFor_eq_ok_iff,
    pure, EStateM.pure, EStateM.Result.ok.injEq]
  constructor
  · rintro ⟨a, _, ⟨hadmitted, rfl⟩, _, _, ⟨rfl, rfl⟩, rfl, rfl⟩
    exact ⟨a, hadmitted, rfl, rfl⟩
  · rintro ⟨a, hadmitted, rfl, rfl⟩
    exact ⟨a, ids, ⟨hadmitted, rfl⟩, _, _, ⟨rfl, rfl⟩, rfl, rfl⟩

theorem wording_eq_of_compileFind {registry : Registry} {fieldAlias condition other : Value}
    {op op' : FindOperator} {ids ids₁ ids₂ : IdSource} (h : outline? condition = outline? other)
    (hop : compileFind registry fieldAlias condition ids = .ok op ids₁)
    (hop' : compileFind registry fieldAlias other ids = .ok op' ids₂) :
    op.wording? = op'.wording? ∧ ids₁ = ids₂ := by
  obtain ⟨a, ha, rfl, rfl⟩ := compileFind_eq_ok_iff.mp hop
  obtain ⟨b, hb, rfl, rfl⟩ := compileFind_eq_ok_iff.mp hop'
  have hblank := blank_eq_of_admission h ha hb
  constructor
  · rw [← a.wording?_findOperator_blank, ← b.wording?_findOperator_blank, hblank]
  · rw [← a.idsAfter_blank, ← b.idsAfter_blank, hblank]

theorem compile_eq_ok_iff {registry : Registry} {target fieldAlias condition : Value}
    {out : Compiled} {ids ids' : IdSource} :
    compile registry target fieldAlias condition ids = .ok out ids' ↔
      (resolveTarget target = .ok .queryBuilder ∧
        ∃ f, compileFragment registry fieldAlias condition ids = .ok f ids' ∧ out = .fragment f) ∨
      (resolveTarget target = .ok .find ∧
        ∃ op, compileFind registry fieldAlias condition ids = .ok op ids' ∧ out = .find op) := by
  simp only [compile, bind_eq_ok_iff, Compiling.ofCheck_eq_ok_iff]
  constructor
  · rintro ⟨target', _, ⟨htarget, rfl⟩, h⟩
    cases target' with
    | queryBuilder => exact Or.inl ⟨htarget, map_eq_ok_iff.mp h⟩
    | find => exact Or.inr ⟨htarget, map_eq_ok_iff.mp h⟩
  · rintro (⟨htarget, h⟩ | ⟨htarget, h⟩)
    · exact ⟨.queryBuilder, ids, ⟨htarget, rfl⟩, map_eq_ok_iff.mpr h⟩
    · exact ⟨.find, ids, ⟨htarget, rfl⟩, map_eq_ok_iff.mpr h⟩

/-- What conditions of one outline compile to has one wording, for either target. -/
theorem wording_eq_of_compile {registry : Registry} {target fieldAlias condition other : Value}
    {out out' : Compiled} {ids ids₁ ids₂ : IdSource} (h : outline? condition = outline? other)
    (hout : compile registry target fieldAlias condition ids = .ok out ids₁)
    (hout' : compile registry target fieldAlias other ids = .ok out' ids₂) :
    out.wording? = out'.wording? := by
  rcases compile_eq_ok_iff.mp hout with ⟨htarget, f, hf, rfl⟩ | ⟨htarget, op, hop, rfl⟩
  · rcases compile_eq_ok_iff.mp hout' with ⟨-, g, hg, rfl⟩ | ⟨hfind, -⟩
    · exact congrArg some (wording_eq_of_compileFragment h hf hg).1
    · simp [htarget] at hfind
  · rcases compile_eq_ok_iff.mp hout' with ⟨hquery, -⟩ | ⟨-, op', hop', rfl⟩
    · simp [htarget] at hquery
    · exact (wording_eq_of_compileFind h hop hop').1

end Criteria
