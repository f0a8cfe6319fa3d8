import Criteria.Condition
import Criteria.Criterion
import Criteria.Registry

/-!
# Shapes of operands

Each operator takes operands of one of six shapes, and an operand of that shape makes a criterion.
A value fits a document operator when it is finite and made of what JSON can write, which whole
numbers of too many digits are not.
-/

namespace Criteria

/-- A text, a number or a date.  Truth values are not numbers here. -/
inductive Value.Scalar : Value → Prop where
  | int (n : Int) : Scalar (.int n)
  | float (x : Number.Double) : Scalar (.float x)
  | decimal (d : Number.Decimal) : Scalar (.decimal d)
  | text (s : String) : Scalar (.text s)
  | date (d : Calendar.Date) : Scalar (.date d)
  | datetime (t : Calendar.DateTime) : Scalar (.datetime t)

inductive Value.Literal : Value → Prop where
  | scalar {v : Value} (h : v.Scalar) : Literal v
  | bool (b : Bool) : Literal (.bool b)

/-- The items of a list or a tuple. -/
def Value.Lists (v : Value) (items : List Value) : Prop := v = .list items ∨ v = .tuple items

inductive Number.Double.IsFinite : Number.Double → Prop where
  | finite (negative : Bool) (mantissa : Nat) (exponent : Int) :
      IsFinite (.finite negative mantissa exponent)

/-- A whole number that is written. -/
def Number.HasNumeral (n : Int) : Prop := (digits n.natAbs).length ≤ Text.digitLimit

/-- What may be a key of a JSON document. -/
inductive Value.IsKey : Value → Prop where
  | null : IsKey .null
  | bool (b : Bool) : IsKey (.bool b)
  | int {n : Int} (h : Number.HasNumeral n) : IsKey (.int n)
  | float {x : Number.Double} (h : x.IsFinite) : IsKey (.float x)
  | text (s : String) : IsKey (.text s)

/-- What a JSON document is made of. -/
inductive Value.IsDocument : Value → Prop where
  | null : IsDocument .null
  | bool (b : Bool) : IsDocument (.bool b)
  | int {n : Int} (h : Number.HasNumeral n) : IsDocument (.int n)
  | float {x : Number.Double} (h : x.IsFinite) : IsDocument (.float x)
  | text (s : String) : IsDocument (.text s)
  | list {items : List Value} (h : ∀ v ∈ items, IsDocument v) : IsDocument (.list items)
  | tuple {items : List Value} (h : ∀ v ∈ items, IsDocument v) : IsDocument (.tuple items)
  | dict {entries : List (Value × Value)} (hkeys : ∀ e ∈ entries, e.1.IsKey)
      (h : ∀ e ∈ entries, IsDocument e.2) : IsDocument (.dict entries)

namespace Value

theorem isScalar_iff {v : Value} : v.isScalar = true ↔ v.Scalar := by
  constructor
  · intro h
    cases v with
    | int n => exact .int n
    | float x => exact .float x
    | decimal d => exact .decimal d
    | text s => exact .text s
    | date d => exact .date d
    | datetime t => exact .datetime t
    | _ => cases h
  · rintro (_ | _ | _ | _ | _ | _) <;> rfl

theorem isLiteral_iff {v : Value} : v.isLiteral = true ↔ v.Literal := by
  rw [isLiteral, Bool.or_eq_true, isScalar_iff]
  constructor
  · rintro (h | h)
    · exact .scalar h
    · cases v with
      | bool b => exact .bool b
      | _ => cases h
  · rintro (h | b)
    · exact Or.inl h
    · exact Or.inr rfl

theorem all_isScalar_iff {items : List Value} :
    items.all isScalar = true ↔ ∀ v ∈ items, v.Scalar := by
  rw [List.all_eq_true]
  exact forall₂_congr fun v _ ↦ isScalar_iff

theorem dict_ne_null {entries : List (Value × Value)} : Value.dict entries ≠ .null := by
  intro h
  cases h

theorem Literal.ne_dict {v : Value} (h : v.Literal) (entries : List (Value × Value)) :
    v ≠ .dict entries := by
  rintro rfl
  cases isLiteral_iff.mpr h

theorem Lists.ne_dict {v : Value} {items : List Value} (h : v.Lists items)
    (entries : List (Value × Value)) : v ≠ .dict entries := by
  rintro rfl
  rcases h with h | h <;> cases h

theorem Lists.ne_null {v : Value} {items : List Value} (h : v.Lists items) : v ≠ .null := by
  rintro rfl
  rcases h with h | h <;> cases h

theorem Lists.not_literal {v : Value} {items : List Value} (h : v.Lists items) : ¬v.Literal := by
  intro hliteral
  rcases h with rfl | rfl <;> cases isLiteral_iff.mpr hliteral

theorem items?_eq_some_iff {v : Value} {items : List Value} :
    v.items? = some items ↔ v.Lists items := by
  cases v <;> simp [items?, Lists]

theorem Lists.unique {v : Value} {items others : List Value} (h : v.Lists items)
    (hothers : v.Lists others) : items = others :=
  Option.some.inj ((items?_eq_some_iff.mpr h).symm.trans (items?_eq_some_iff.mpr hothers))

end Value

/-! ## Conditions without a shape -/

namespace Condition

theorem ofItems_eq_error {condition : Value} {items : List Value} {cause : ConditionFault}
    (h : ofItems condition items = .error cause) :
    (¬∀ i ∈ items, i.Scalar) ∧ ∃ reason, cause = .conditionShape condition reason := by
  rw [ofItems] at h
  split at h
  · cases h
  · rename_i hall
    exact ⟨fun hscalar ↦ hall (Value.all_isScalar_iff.mpr hscalar), _, (Except.error.inj h).symm⟩

/-- A condition without a shape is missing, has an operator without an operand, is an object that
does not have one operator, or is a value of another kind. -/
theorem classify_eq_error {condition : Value} {cause : ConditionFault}
    (h : classify condition = .error cause) :
    condition = .null ∧ cause = .missingCondition ∨
    (∃ token, condition = .dict [(token, .null)] ∧ cause = .missingOperand token) ∨
    (∃ entries, condition = .dict entries ∧ entries.length ≠ 1 ∧
      cause = .ambiguousShape (entries.map (·.1))) ∨
    condition ≠ .null ∧ (∀ entries, condition ≠ .dict entries) ∧ ¬condition.Literal ∧
      (∀ items, condition.Lists items → ¬∀ i ∈ items, i.Scalar) ∧
      ∃ reason, cause = .conditionShape condition reason := by
  have hitems : ∀ items, condition.Lists items → ofItems condition items = .error cause →
      condition ≠ .null ∧ (∀ entries, condition ≠ .dict entries) ∧ ¬condition.Literal ∧
        (∀ items, condition.Lists items → ¬∀ i ∈ items, i.Scalar) ∧
        ∃ reason, cause = .conditionShape condition reason := by
    intro items hlists hcause
    obtain ⟨hscalar, hreason⟩ := ofItems_eq_error hcause
    refine ⟨hlists.ne_null, hlists.ne_dict, hlists.not_literal, fun others hothers ↦ ?_, hreason⟩
    rwa [hothers.unique hlists]
  rw [classify.eq_def] at h
  split at h
  · exact Or.inl ⟨rfl, (Except.error.inj h).symm⟩
  · rename_i token operand
    split at h
    · rename_i hnull
      obtain rfl := Value.isNull_iff.mp hnull
      exact Or.inr (Or.inl ⟨token, rfl, (Except.error.inj h).symm⟩)
    · cases h
  · rename_i entries hone
    refine Or.inr (Or.inr (Or.inl ⟨entries, rfl, fun hlength ↦ ?_, (Except.error.inj h).symm⟩))
    obtain ⟨⟨token, operand⟩, rfl⟩ := List.length_eq_one_iff.mp hlength
    exact hone token operand rfl
  · exact Or.inr (Or.inr (Or.inr (hitems _ (Or.inl rfl) h)))
  · exact Or.inr (Or.inr (Or.inr (hitems _ (Or.inr rfl) h)))
  · split at h <;> cases h
  · rename_i hnull hone hdict hlist htuple htext
    split at h
    · cases h
    · rename_i hliteral
      refine Or.inr (Or.inr (Or.inr ⟨hnull, hdict, fun h ↦ hliteral (Value.isLiteral_iff.mpr h), ?_,
        none, (Except.error.inj h).symm⟩))
      rintro items (rfl | rfl) -
      · exact hlist items rfl
      · exact htuple items rfl

end Condition

/-! ## Documents -/

namespace Json

theorem isSome_floatChars? {x : Number.Double} : (floatChars? x).isSome ↔ x.IsFinite := by
  constructor
  · intro h
    cases x with
    | finite negative mantissa exponent => exact .finite negative mantissa exponent
    | _ => cases h
  · rintro ⟨negative, mantissa, exponent⟩
    rfl

theorem isSome_intChars? {n : Int} : (intChars? n).isSome ↔ Number.HasNumeral n := by
  rw [intChars?, Number.HasNumeral, ← Number.hasNumeral_iff]
  split <;> simp_all

theorem isSome_keyChars? {k : Value} : (keyChars? k).isSome ↔ k.IsKey := by
  constructor
  · intro h
    cases k with
    | null => exact .null
    | bool b => exact .bool b
    | int n => exact .int (isSome_intChars?.mp h)
    | float x => exact .float (isSome_floatChars?.mp h)
    | text s => exact .text s
    | _ => cases h
  · intro h
    cases h with
    | int h => exact isSome_intChars?.mpr h
    | float h => exact isSome_floatChars?.mpr h
    | _ => rfl

theorem isSome_itemChars?_cons {v : Value} {rest : List Value} :
    (itemChars? (v :: rest)).isSome ↔ (chars? v).isSome ∧ (itemChars? rest).isSome := by
  rw [itemChars?]
  cases chars? v <;> cases itemChars? rest <;> simp

theorem isSome_entryChars?_cons {k v : Value} {rest : List (Value × Value)} :
    (entryChars? ((k, v) :: rest)).isSome ↔
      (keyChars? k).isSome ∧ (chars? v).isSome ∧ (entryChars? rest).isSome := by
  rw [entryChars?]
  cases keyChars? k <;> cases chars? v <;> cases entryChars? rest <;> simp

mutual

/-- What can be written is what documents are made of. -/
theorem isSome_chars? : ∀ v : Value, (chars? v).isSome ↔ v.IsDocument
  | .null => ⟨fun _ ↦ .null, fun _ ↦ rfl⟩
  | .bool b => ⟨fun _ ↦ .bool b, fun _ ↦ rfl⟩
  | .int n => by
      constructor
      · intro h
        exact .int (isSome_intChars?.mp h)
      · intro h
        cases h with
        | int h => exact isSome_intChars?.mpr h
  | .text s => ⟨fun _ ↦ .text s, fun _ ↦ rfl⟩
  | .float x => by
      constructor
      · intro h
        exact .float (isSome_floatChars?.mp h)
      · intro h
        cases h with
        | float h => exact isSome_floatChars?.mpr h
  | .list items => by
      rw [chars?, Option.isSome_map, isSome_itemChars? items]
      constructor
      · exact .list
      · intro h
        cases h with
        | list h => exact h
  | .tuple items => by
      rw [chars?, Option.isSome_map, isSome_itemChars? items]
      constructor
      · exact .tuple
      · intro h
        cases h with
        | tuple h => exact h
  | .dict entries => by
      rw [chars?, Option.isSome_map, isSome_entryChars? entries]
      constructor
      · intro h
        exact .dict (fun e he ↦ (h e he).1) fun e he ↦ (h e he).2
      · intro h
        cases h with
        | dict hkeys h => exact fun e he ↦ ⟨hkeys e he, h e he⟩
  | .decimal _ | .bytes _ | .date _ | .datetime _ | .set _ | .record _ | .object _
  | .operator _ _ _ _ _ => ⟨nofun, nofun⟩
termination_by structural v => v

theorem isSome_itemChars? : ∀ items : List Value,
    (itemChars? items).isSome ↔ ∀ v ∈ items, v.IsDocument
  | [] => ⟨fun _ ↦ nofun, fun _ ↦ rfl⟩
  | v :: rest => by
      rw [isSome_itemChars?_cons, isSome_chars? v, isSome_itemChars? rest, List.forall_mem_cons]
termination_by structural items => items

theorem isSome_entryChars? : ∀ entries : List (Value × Value),
    (entryChars? entries).isSome ↔ ∀ e ∈ entries, e.1.IsKey ∧ e.2.IsDocument
  | [] => ⟨fun _ ↦ nofun, fun _ ↦ rfl⟩
  | (k, v) :: rest => by
      rw [isSome_entryChars?_cons, isSome_keyChars?, isSome_chars? v, isSome_entryChars? rest,
        List.forall_mem_cons, and_assoc]
termination_by structural entries => entries

end

end Json

/-! ## Operands -/

/-- The shapes of operands. -/
inductive Shape where
  | scalars | scalar | literal | ends | text | document

namespace Shape

/-- A value of a shape. -/
def Fits : Shape → Value → Prop
  | scalars, v => ∃ items, v.Lists items ∧ ∀ i ∈ items, i.Scalar
  | scalar, v => v.Scalar
  | literal, v => v.Literal
  | ends, v => ∃ low high, v.Lists [low, high] ∧ low.Scalar ∧ high.Scalar
  | text, v => ∃ s, v = .text s
  | document, v => v.IsDocument

end Shape

namespace Operator

/-- The shape of the operands that an operator takes. -/
def shape : Operator → Shape
  | isIn | notIn => .scalars
  | gte | lte | gt | lt => .scalar
  | between | notBetween => .ends
  | contains | notContains | iContains | notIContains | startsWith | notStartsWith | endsWith
  | notEndsWith => .text
  | regex | notRegex | regexi | notRegexi => .text
  | equalTo | notEqualTo => .literal
  | jsonContains | jsonContained | jsonEquals => .document
  | jsonHasKey => .text

def Fits (o : Operator) (operand : Value) : Prop := o.shape.Fits operand

end Operator

namespace Criterion

theorem isSome_scalarItems? {v : Value} : (scalarItems? v).isSome ↔ Shape.scalars.Fits v := by
  rw [Shape.Fits, scalarItems?]
  simp only [← Value.items?_eq_some_iff, ← Value.all_isScalar_iff]
  cases v.items? with
  | none => simp
  | some items =>
      by_cases h : items.all Value.isScalar = true
      · simp only [if_pos h, Option.isSome_some, true_iff]
        exact ⟨items, rfl, h⟩
      · simp only [if_neg h, Option.isSome_none, Bool.false_eq_true, false_iff]
        rintro ⟨_, ⟨⟩, hall⟩
        exact h hall

theorem isSome_ends? {v : Value} : (ends? v).isSome ↔ Shape.ends.Fits v := by
  rw [Shape.Fits, ends?]
  simp only [← Value.items?_eq_some_iff, ← Value.isScalar_iff]
  constructor
  · intro h
    split at h
    · rename_i low high hitems
      split at h
      · rename_i hscalar
        exact ⟨low, high, hitems, by simpa using hscalar⟩
      · cases h
    · cases h
  · rintro ⟨low, high, hitems, hlow, hhigh⟩
    simp [hitems, hlow, hhigh]

theorem isSome_text? {v : Value} : (text? v).isSome ↔ Shape.text.Fits v := by
  cases v <;> simp [text?, Shape.Fits]

theorem isSome_document? {v : Value} : (document? v).isSome ↔ Shape.document.Fits v := by
  rw [document?, Option.isSome_map, Json.write?, Option.isSome_map]
  exact Json.isSome_chars? v

theorem isSome_satisfying? {test : Value → Bool} {v : Value} :
    (satisfying? test v).isSome ↔ test v = true := by
  rw [satisfying?]
  by_cases h : test v = true <;> simp [h]

end Criterion

/-- An operand makes a criterion when it has the shape that the operator takes. -/
theorem Operator.isSome_criterion? {o : Operator} {operand : Value} :
    (o.criterion? operand).isSome ↔ o.Fits operand := by
  cases o with
  | isIn | notIn =>
      rw [criterion?, Option.isSome_map]
      exact Criterion.isSome_scalarItems?
  | gte | lte | gt | lt =>
      rw [criterion?, Option.isSome_map, Criterion.isSome_satisfying?]
      exact Value.isScalar_iff
  | equalTo | notEqualTo =>
      rw [criterion?, Option.isSome_map, Criterion.isSome_satisfying?]
      exact Value.isLiteral_iff
  | between | notBetween =>
      rw [criterion?, Option.isSome_map]
      exact Criterion.isSome_ends?
  | jsonContains | jsonContained | jsonEquals =>
      rw [criterion?, Option.isSome_map]
      exact Criterion.isSome_document?
  | _ =>
      rw [criterion?, Option.isSome_map]
      exact Criterion.isSome_text?

end Criteria
