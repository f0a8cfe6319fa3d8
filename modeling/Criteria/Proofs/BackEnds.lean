import Criteria.Proofs.Correspondence
import Criteria.Proofs.Language
import Criteria.Proofs.Negation
import Criteria.Proofs.Supplies

/-!
# Back ends

What conditions compile to can be interpreted by both back ends.  A compiled operator is a native
one for which there is a test of a column, or a raw one that comes from an operator which the
evaluation knows, and whose template asks for the one parameter that it brings.  So an evaluation
never comes to an operator that it does not know, and a column always gets its test.
-/

namespace Criteria

/-! ## Faults of an evaluation -/

/-- A fault that says that a back end knows no such operator. -/
def Fault.isUnsupported : Fault → Bool
  | unsupportedKind _ _ | unsupportedOrigin _ => true
  | _ => false

/-- The operator was known, whatever came of it. -/
def IsKnown (outcome : Except Fault Bool) : Prop :=
  ∀ fault, outcome = .error fault → fault.isUnsupported = false

theorem isKnown_ok (b : Bool) : IsKnown (.ok b) := nofun

theorem isKnown_error {fault : Fault} (h : fault.isUnsupported = false) :
    IsKnown (.error fault) := by
  rintro _ ⟨⟩
  exact h

theorem IsKnown.map {outcome : Except Fault Bool} (h : IsKnown outcome) (f : Bool → Bool) :
    IsKnown (outcome.map f) := by
  cases outcome with
  | ok b => exact isKnown_ok (f b)
  | error fault => exact isKnown_error (h fault rfl)

namespace Value

theorem isKnown_compareQuantities (c : Comparison) (exactOnly : Bool) (x y : Number.Quantity) :
    IsKnown (compareQuantities c exactOnly x y) := by
  rw [compareQuantities]
  split
  · exact isKnown_ok _
  · split
    · exact isKnown_error rfl
    · exact isKnown_ok false

mutual

theorem isKnown_compareBy (c : Comparison) (v w : Value) : IsKnown (v.compareBy c w) := by
  rw [compareBy.eq_def]
  split
  case h_4 =>
    split
    · exact isKnown_ok _
    · exact isKnown_error rfl
  case h_5 | h_6 | h_10 => exact isKnown_error rfl
  case h_7 | h_8 => exact isKnown_compareItems c _ _
  case h_11 =>
    split
    · exact isKnown_compareQuantities c _ _ _
    · exact isKnown_error rfl
  all_goals exact isKnown_ok _
termination_by sizeOf v

theorem isKnown_compareItems (c : Comparison) (items others : List Value) :
    IsKnown (compareItems c items others) := by
  rw [compareItems.eq_def]
  split
  case h_4 =>
    split
    · exact isKnown_compareItems c _ _
    · exact isKnown_compareBy c _ _
    · exact isKnown_error rfl
  all_goals exact isKnown_ok _
termination_by sizeOf items

end

end Value

namespace Memory

theorem isKnown_ofVerdict (verdict : Verdict) : IsKnown (Fault.ofVerdict verdict) := by
  cases verdict with
  | signals => exact isKnown_error rfl
  | _ => exact isKnown_ok _

theorem isKnown_unlessNull (field : Value) {test : Except Fault Bool} (h : IsKnown test) :
    IsKnown (unlessNull field test) := by
  rw [unlessNull]
  split
  · exact isKnown_ok false
  · exact h

theorem isKnown_inRange (low high field : Value) : IsKnown (inRange low high field) := by
  rw [inRange]
  split
  · exact Value.isKnown_compareBy .le field high
  · exact Value.isKnown_compareBy .le low field

theorem isKnown_onTexts (pattern field : Value) {test : String → String → Except Fault Bool}
    (h : ∀ s t, IsKnown (test s t)) : IsKnown (onTexts pattern field test) := by
  rw [onTexts]
  split
  · exact h _ _
  · exact isKnown_error rfl

theorem isKnown_searched (ignoreCase negated : Bool) (pattern field : Value) :
    IsKnown (searched ignoreCase negated pattern field) := by
  refine isKnown_onTexts pattern field fun s t ↦ ?_
  rw [searchedIn]
  split
  · exact isKnown_ok _
  · next cause _ =>
      apply isKnown_error
      cases cause <;> rfl

theorem isKnown_liked (ignoreCase : Bool) (pattern field : Value) :
    IsKnown (liked ignoreCase pattern field) :=
  isKnown_onTexts pattern field fun _ _ ↦ isKnown_ok _

theorem isKnown_holdsKey (document key : Value) : IsKnown (holdsKey document key) := by
  rw [holdsKey]
  split
  · split
    · exact isKnown_ok _
    · exact isKnown_error rfl
  · exact isKnown_ok false

theorem isKnown_evaluateRaw {o : Operator} (ho : o ∈ Registry.full.origins)
    (operand field : Value) : IsKnown (evaluateRaw o operand field) := by
  simp only [Registry.full, List.mem_cons, List.not_mem_nil, or_false] at ho
  rcases ho with rfl | rfl | rfl | rfl | rfl | rfl | rfl | rfl
  · exact isKnown_unlessNull field (isKnown_searched false false operand field)
  · exact isKnown_unlessNull field (isKnown_searched false true operand field)
  · exact isKnown_unlessNull field (isKnown_searched true false operand field)
  · exact isKnown_unlessNull field (isKnown_searched true true operand field)
  · exact isKnown_unlessNull field (isKnown_ofVerdict _)
  · exact isKnown_unlessNull field (isKnown_ofVerdict _)
  · exact isKnown_unlessNull field (isKnown_ofVerdict _)
  · exact isKnown_holdsKey _ operand

theorem isKnown_evaluateNative {op : FindOperator} (hop : op.kind ∈ Registry.full.kinds)
    (field : Value) : IsKnown (evaluateNative op field) := by
  cases op with
  | equal value => exact isKnown_unlessNull field (isKnown_ofVerdict _)
  | isIn values => exact isKnown_unlessNull field (isKnown_ofVerdict _)
  | moreThan value => exact isKnown_unlessNull field (field.isKnown_compareBy .gt value)
  | moreThanOrEqual value => exact isKnown_unlessNull field (field.isKnown_compareBy .ge value)
  | lessThan value => exact isKnown_unlessNull field (field.isKnown_compareBy .lt value)
  | lessThanOrEqual value => exact isKnown_unlessNull field (field.isKnown_compareBy .le value)
  | between low high => exact isKnown_unlessNull field (isKnown_inRange low high field)
  | like pattern => exact isKnown_unlessNull field (isKnown_liked false pattern field)
  | ilike pattern => exact isKnown_unlessNull field (isKnown_liked true pattern field)
  | isNull => exact isKnown_ok _
  | not op => simp [Registry.full, FindOperator.kind] at hop
  | raw value template parameters origin => simp [Registry.full, FindOperator.kind] at hop

end Memory

/-! ## Operators that both back ends know -/

namespace FindOperator

/-- An operator for which there is a test of a column, or a raw one whose origin can be evaluated
and whose template asks for its one parameter. -/
inductive IsInterpretable : FindOperator → Prop where
  | test {op : FindOperator} (hnative : op.IsNative) {check : Sql.Check}
      (hcheck : Sql.Check.ofOperator op.core = .ok check) : IsInterpretable op
  | raw {o : Operator} (ho : o ∈ Memory.Registry.full.origins) (operand value : Value)
      {sign name : String} (hsign : IsPlain sign.toList) (hcolon : ':' ∉ sign.toList)
      (hname : IsWordOnly name.toList) (hline : '_' ∈ name.toList) :
      IsInterpretable (.raw operand (Criterion.rawTemplate sign name) [(name, value)] (some o))

theorem kind_mem_of_check {op : FindOperator} {check : Sql.Check}
    (h : Sql.Check.ofOperator op = .ok check) : op.kind ∈ Memory.Registry.full.kinds := by
  cases op with
  | not op => cases h
  | raw value template parameters origin => cases h
  | _ => simp [Memory.Registry.full, kind]

theorem IsInterpretable.isKnown_evaluate {op : FindOperator} (h : op.IsInterpretable)
    (field : Value) : IsKnown (Memory.evaluate .full op field) := by
  cases h with
  | raw ho operand value hsign hcolon hname hline =>
      rw [Memory.evaluate, if_pos (List.contains_iff_mem.mpr ho)]
      exact Memory.isKnown_evaluateRaw ho operand field
  | test hnative hcheck =>
      induction op with
      | not op ih =>
          rw [Memory.evaluate]
          split
          · exact isKnown_ok false
          · exact (ih hnative hcheck).map (!·)
      | raw value template parameters origin => exact absurd rfl hnative
      | _ =>
          have hkind := kind_mem_of_check hcheck
          rw [Memory.evaluate]
          · split
            · exact Memory.isKnown_evaluateNative hkind field
            · next hmissing => exact absurd (List.contains_iff_mem.mpr hkind) hmissing
          all_goals exact nofun

end FindOperator

/-! ## Tests and texts -/

namespace Sql

theorem mem_namesFrom_append {name : String} {cs : List Char}
    (h : ∀ before, name ∈ namesFrom before cs) (front : List Char) (before : Option Char) :
    name ∈ namesFrom before (front ++ cs) := by
  induction front generalizing before with
  | nil => exact h before
  | cons c rest ih =>
      rw [List.cons_append, namesFrom]
      cases (if c = ':' && mayPrecede before then nameAfterColon (rest ++ cs) else []) with
      | nil => exact ih (some c)
      | cons d others => exact List.mem_cons_of_mem _ (ih (some c))

theorem spells_rawTail {sign name : String} (hcolon : ':' ∉ sign.toList)
    (hname : IsWordOnly name.toList) (hne : name.toList ≠ []) :
    Spells (Criterion.rawTail sign name) [⟨name, false⟩] := by
  have hspells := spells_value hname hne stops_nil .nil
  rw [List.append_nil] at hspells
  exact .char (by decide) (.plain_append hcolon hspells)

/-- A raw text asks for its parameter, and for nothing else unless the alias does. -/
theorem placeholderNames_raw {sign name : String} (hcolon : ':' ∉ sign.toList)
    (hname : IsWordOnly name.toList) (hne : name.toList ≠ []) (columnAlias : String) :
    name ∈ placeholderNames (columnAlias ++ " " ++ sign ++ " :" ++ name) ∧
      (':' ∉ columnAlias.toList →
        placeholderNames (columnAlias ++ " " ++ sign ++ " :" ++ name) = [name]) := by
  have htext : (columnAlias ++ " " ++ sign ++ " :" ++ name).toList =
      columnAlias.toList ++ Criterion.rawTail sign name := by
    simp [Criterion.rawTail, String.toList_append]
  have hspells := spells_rawTail hcolon hname hne
  have hsingle : ∀ p ∈ [(⟨name, false⟩ : Placeholder)], p.spread = false := by simp
  rw [placeholderNames, htext]
  constructor
  · refine mem_namesFrom_append (fun before ↦ ?_) columnAlias.toList none
    rw [namesFrom_of_spells hspells hsingle]
    exact List.mem_cons_self
  · intro halias
    exact namesFrom_of_spells (.plain_append halias hspells) hsingle none

theorem BoundText.exists_ofTemplate {text name : String} (hname : name ∈ placeholderNames text)
    (hfree : name ∉ reservedNames.map (·.1)) (value : Value) :
    ∃ t, ofTemplate text [(name, value)] = .ok t := by
  have hreserved : (reservedNames.find? fun r ↦ ([(name, value)] : Parameters).any
      fun p ↦ p.1 == r.1) = none := by
    rw [List.find?_eq_none]
    rintro r hr htaken
    have hsame : name = r.1 := by simpa using htaken
    exact hfree (hsame ▸ List.mem_map_of_mem hr)
  have hasks : ∀ s ∈ [(name, (⟨⟨value, false⟩, true⟩ : Supply))],
      (bare text).asksFor s.1 = true :=
    List.forall_mem_singleton.mpr (asksFor_bare_iff.mpr hname)
  rw [ofTemplate, hreserved]
  exact ⟨_, supplyAll_eq_ok_iff.mpr ⟨hasks, rfl⟩⟩

end Sql

namespace FindOperator

theorem render_raw {sign name : String} (hsign : IsPlain sign.toList)
    (hname : IsWordOnly name.toList) (operand : Value) (parameters : Parameters)
    (origin : Option Operator) (columnAlias : String) :
    (raw operand (Criterion.rawTemplate sign name) parameters origin).render columnAlias =
      .ok (columnAlias ++ " " ++ sign ++ " :" ++ name) := by
  rw [render, Criterion.fill_rawTemplate_of_isPlain hsign hname.isPlain]

theorem IsInterpretable.exists_atom {op : FindOperator} (h : op.IsInterpretable)
    (column : Sql.Column) (columnAlias : Option String) :
    ∃ a, Sql.Atom.ofOperator Sql.Atom.allKinds column columnAlias op = .ok a := by
  cases h with
  | test hnative hcheck =>
      rw [Sql.Atom.ofOperator_eq hnative, hcheck]
      exact ⟨_, rfl⟩
  | @raw o ho operand value sign name hsign hcolon hname hline =>
      have hne : name.toList ≠ [] := List.ne_nil_of_mem hline
      have hfree : name ∉ Sql.BoundText.reservedNames.map (·.1) := by
        -- Neither of the names that are taken has a line in it.
        rintro hreserved
        have hnone : ∀ taken ∈ Sql.BoundText.reservedNames.map (·.1), '_' ∉ taken.toList := by
          decide
        exact hnone name hreserved hline
      obtain ⟨t, ht⟩ := Sql.BoundText.exists_ofTemplate
        (Sql.placeholderNames_raw hcolon hname hne (Sql.Atom.templateAlias column columnAlias)).1
        hfree value
      refine ⟨.text t, ?_⟩
      simp [Sql.Atom.ofOperator, Sql.Atom.ofRaw, render_raw hsign hname, ht]

end FindOperator

/-! ## What conditions compile to -/

theorem line_mem_parameterName (id operator : String) (fieldAlias : Value)
    (suffix : Option String) :
    '_' ∈ ((BindContext.create id operator fieldAlias).parameterName suffix).toList := by
  have hstem : '_' ∈ (BindContext.create id operator fieldAlias).stem.toList := by
    simp [BindContext.create, String.toList_append]
  cases suffix with
  | none => exact hstem
  | some suffix =>
      rw [BindContext.parameterName]
      split
      · exact hstem
      · simp [String.toList_append]

namespace FindOperator

theorem isInterpretable_negatedIf {op : FindOperator} (hnative : op.IsNative) {check : Sql.Check}
    (hcheck : Sql.Check.ofOperator op.core = .ok check) (negated : Bool) :
    (negatedIf negated op).IsInterpretable := by
  cases negated with
  | false => exact .test hnative hcheck
  | true =>
      have hnot : (FindOperator.not op).IsNative := hnative
      exact .test hnot hcheck

theorem isInterpretable_equality (negated : Bool) (value : Value) :
    (negatedIf negated (equal value)).IsInterpretable := by
  have hnative : (equal value).IsNative := nofun
  cases value <;> exact isInterpretable_negatedIf hnative rfl negated

theorem isInterpretable_membership (negated : Bool) (items : List Value) :
    (negatedIf negated (isIn items)).IsInterpretable := by
  have hnative : (isIn items).IsNative := nofun
  exact isInterpretable_negatedIf hnative rfl negated

theorem isInterpretable_range (negated : Bool) (low high : Value) :
    (negatedIf negated (between low high)).IsInterpretable := by
  have hnative : (between low high).IsNative := nofun
  exact isInterpretable_negatedIf hnative rfl negated

theorem isInterpretable_pattern (ignoreCase negated : Bool) (pattern : String) :
    (negatedIf negated
      (if ignoreCase then ilike (.text pattern) else like (.text pattern))).IsInterpretable := by
  cases ignoreCase with
  | false =>
      have hnative : (like (.text pattern)).IsNative := nofun
      exact isInterpretable_negatedIf hnative rfl negated
  | true =>
      have hnative : (ilike (.text pattern)).IsNative := nofun
      exact isInterpretable_negatedIf hnative rfl negated

theorem isFixed_of_isScalar {v : Value} (h : v.isScalar = true) : Sql.Check.isFixed v = false := by
  cases v with
  | null => cases h
  | bool b => cases h
  | _ => rfl

theorem isInterpretable_ofComparison (c : Comparison) {value : Value} (h : value.isScalar = true) :
    (ofComparison c value).IsInterpretable := by
  -- Only the fixed truth values, which are no scalars, have no order on a column.
  have hoperand : ∀ check, Sql.Check.withOperand value check = .ok check := by
    intro check
    rw [Sql.Check.withOperand, isFixed_of_isScalar h]
    rfl
  have hnative : (ofComparison c value).IsNative := by
    cases c <;> simp [IsNative, ofComparison, core, kind]
  cases c <;> exact .test hnative (hoperand _)

/-- A criterion of an operator becomes an operator that both back ends know. -/
theorem isInterpretable_ofCriterion {o : Operator} {operand : Value} {c : Criterion}
    (h : o.criterion? operand = some c) {id : String} (hid : IsWordOnly id.toList)
    (fieldAlias : Value) : (ofCriterion (.create id o.name fieldAlias) o c).IsInterpretable := by
  have hstem := isWordOnly_stem hid o fieldAlias
  have hline := line_mem_parameterName id o.name fieldAlias
  have hregex : ∀ ignoreCase negated, IsPlain (regexSign ignoreCase negated).toList ∧
      ':' ∉ (regexSign ignoreCase negated).toList := by decide
  have hrelation : ∀ relation : DocumentRelation, IsPlain relation.symbol.toList ∧
      ':' ∉ relation.symbol.toList := by
    intro relation
    cases relation <;> decide
  -- A raw operator can be evaluated for the operator that it comes from.
  cases o
  case isIn | notIn =>
    obtain ⟨items, -, rfl⟩ := Option.map_eq_some_iff.mp h
    exact isInterpretable_membership _ items
  case gte | lte | gt | lt =>
    obtain ⟨value, hvalue, rfl⟩ := Option.map_eq_some_iff.mp h
    rw [ofCriterion]
    exact isInterpretable_ofComparison _ (Criterion.satisfying?_eq_some hvalue)
  case equalTo | notEqualTo =>
    obtain ⟨value, -, rfl⟩ := Option.map_eq_some_iff.mp h
    exact isInterpretable_equality _ value
  case between | notBetween =>
    obtain ⟨⟨low, high⟩, -, rfl⟩ := Option.map_eq_some_iff.mp h
    exact isInterpretable_range _ low high
  case regex | notRegex | regexi | notRegexi =>
    obtain ⟨text, -, rfl⟩ := Option.map_eq_some_iff.mp h
    exact .raw (by decide) _ _ (hregex _ _).1 (hregex _ _).2 hstem (hline none)
  case jsonContains | jsonContained | jsonEquals =>
    obtain ⟨⟨value, json⟩, -, rfl⟩ := Option.map_eq_some_iff.mp h
    exact .raw (by decide) _ _ (hrelation _).1 (hrelation _).2 hstem (hline none)
  case jsonHasKey =>
    obtain ⟨key, -, rfl⟩ := Option.map_eq_some_iff.mp h
    have hname := BindContext.isWordOnly_parameterName hstem "key" (by decide)
    exact .raw (by decide) _ _ (by decide) (by decide) hname (hline (some "key"))
  all_goals
    obtain ⟨text, -, rfl⟩ := Option.map_eq_some_iff.mp h
    exact isInterpretable_pattern _ _ _

theorem isInterpretable_of_compileFind {registry : Registry} {fieldAlias condition : Value}
    {op : FindOperator} {ids ids' : IdSource} (hids : IsWordOnly ids.current.toList)
    (h : compileFind registry fieldAlias condition ids = .ok op ids') : op.IsInterpretable := by
  obtain ⟨a, ha, rfl, -⟩ := compileFind_eq_ok_iff.mp h
  rcases sentinel_or_criterion_of_admission ha with
    ⟨s, -, rfl⟩ | ⟨request, operand, o, c, -, hc, rfl⟩
  · have hnative : isNull.IsNative := nofun
    exact isInterpretable_negatedIf hnative rfl _
  · exact isInterpretable_ofCriterion hc hids fieldAlias

/-- Whatever compiles to an operator is known to both back ends.  No evaluation of it comes to an
operator that is not known, every column has a test or a text for it, and a raw operator has an
origin that can be evaluated and binds just what its text asks for. -/
theorem compiled_operator_is_interpreted {registry : Registry} {fieldAlias condition : Value}
    {op : FindOperator} {ids ids' : IdSource} (hids : IsWordOnly ids.current.toList)
    (h : compileFind registry fieldAlias condition ids = .ok op ids') :
    (∀ field fault, Memory.evaluate .full op field = .error fault →
      fault.isUnsupported = false) ∧
    (∀ column columnAlias, ∃ a,
      Sql.Atom.ofOperator Sql.Atom.allKinds column columnAlias op = .ok a) ∧
    ∀ operand template parameters origin, op.core = .raw operand template parameters origin →
      (∃ o ∈ Memory.Registry.full.origins, origin = some o) ∧
      ∀ columnAlias : String, ':' ∉ columnAlias.toList → ∃ text,
        op.core.render columnAlias = .ok text ∧
        Sql.placeholderNames text = parameters.map (·.1) := by
  have hknown := isInterpretable_of_compileFind hids h
  refine ⟨hknown.isKnown_evaluate, hknown.exists_atom,
    fun operand template parameters origin hraw ↦ ?_⟩
  cases hknown with
  | test hnative _ =>
      rw [IsNative, hraw] at hnative
      exact absurd rfl hnative
  | raw ho operand value hsign hcolon hname hline =>
      obtain ⟨rfl, rfl, rfl, rfl⟩ := FindOperator.raw.inj hraw
      refine ⟨⟨_, ho, rfl⟩, fun columnAlias halias ↦ ⟨_, render_raw hsign hname _ _ _ _, ?_⟩⟩
      exact (Sql.placeholderNames_raw hcolon hname (List.ne_nil_of_mem hline) columnAlias).2 halias

/-- The question for a key of a document is the text `e.meta ? :p1_jsonHasKey_meta_key`. -/
theorem compiled_operator_is_interpreted_key :
    ∃ (op : FindOperator) (left : IdSource) (template name : String),
      IsWordOnly IdSource.standard.current.toList ∧
      compileFind .full (.text "meta") (.dict [(.text "$jsonHasKey", .text "size")]) .standard =
        .ok op left ∧
      op = .raw (.text "size") template [(name, .text "size")] (some .jsonHasKey) ∧
      (∀ field fault, Memory.evaluate .full op field = .error fault →
        fault.isUnsupported = false) ∧
      (∀ column columnAlias, ∃ a,
        Sql.Atom.ofOperator Sql.Atom.allKinds column columnAlias op = .ok a) ∧
      ∃ text, op.render "e.meta" = .ok text ∧ Sql.placeholderNames text = [name] := by
  have hwords : IsWordOnly IdSource.standard.current.toList := by decide
  obtain ⟨op, left, template, name, hop, rfl⟩ :
      ∃ (op : FindOperator) (left : IdSource) (template name : String),
        compileFind .full (.text "meta") (.dict [(.text "$jsonHasKey", .text "size")]) .standard =
          .ok op left ∧
        op = .raw (.text "size") template [(name, .text "size")] (some .jsonHasKey) :=
    ⟨_, _, _, _, rfl, rfl⟩
  obtain ⟨hknown, hatom, hraw⟩ := compiled_operator_is_interpreted hwords hop
  obtain ⟨-, hnames⟩ := hraw _ _ _ _ rfl
  exact ⟨_, left, template, name, hwords, hop, rfl, hknown, hatom, hnames "e.meta" (by decide)⟩

end FindOperator

end Criteria
