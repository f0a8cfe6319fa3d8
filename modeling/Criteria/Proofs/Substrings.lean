import Criteria.Proofs.Complements
import Criteria.Proofs.WildcardExpressions

/-!
# Texts that are looked for

A text without wildcards stands for itself in a pattern.  So a pattern that has `%` on both sides of
it covers just the texts in which it occurs, and a pattern that has `%` behind it those that begin
with it, whatever characters there are, line breaks among them.
-/

namespace Criteria

namespace Like

/-- A text without wildcards. -/
def IsPlain (text : List Char) : Prop := ∀ c ∈ text, c ≠ '%' ∧ c ≠ '_'

theorem coversBody_append_run_iff {word : List Char} (hword : IsPlain word) {text : List Char} :
    CoversBody (· = ·) (word ++ ['%']) text ↔ word <+: text := by
  induction word generalizing text with
  | nil =>
      rw [List.nil_append, coversBody_run_iff]
      exact iff_of_true ⟨[], List.nil_suffix, coversBody_nil_iff.mpr (Or.inl rfl)⟩ List.nil_prefix
  | cons c word ih =>
      obtain ⟨⟨hrun, hone⟩, hrest⟩ := List.forall_mem_cons.mp hword
      rw [List.cons_append, coversBody_cons_iff hrun, List.cons_prefix_iff]
      simp only [hone, false_or, ih hrest]
      constructor
      · rintro ⟨_, rest, rfl, rfl, h⟩
        exact ⟨rest, rfl, h⟩
      · rintro ⟨rest, rfl, h⟩
        exact ⟨c, rest, rfl, rfl, h⟩

theorem coversBody_run_append_run_iff {word : List Char} (hword : IsPlain word)
    {text : List Char} :
    CoversBody (· = ·) ('%' :: (word ++ ['%'])) text ↔ word <:+: text := by
  rw [coversBody_run_iff, List.infix_iff_prefix_suffix]
  simp only [coversBody_append_run_iff hword, and_comm]

end Like

namespace Memory

/-- An operator that looks for a text always compiles.  On a value that is there it says whether its
pattern matches, or whether it does not. -/
theorem exists_compileFind_pattern {o : Operator} {placement : Placement}
    {ignoreCase negated : Bool} {text : String}
    (hc : o.criterion? (.text text) = some (.pattern placement ignoreCase negated text))
    (fieldAlias : Value) (ids : IdSource) :
    ∃ op left, compileFind .full fieldAlias (o.condition (.text text)) ids = .ok op left ∧
      ∀ field : Value, field.isNull = false → evaluate .full op field =
        (liked ignoreCase (.text (placement.pattern text)) field).map (· != negated) := by
  refine ⟨_, _, Operator.compileFind_condition hc nofun fieldAlias ids, fun field hfield ↦ ?_⟩
  rw [evaluate_of_search? hc rfl, unlessNull_of_isNull_eq_false hfield]

/-- A text that is looked for exactly is found when its pattern covers the text of a value. -/
theorem exists_compileFind_exactly {o : Operator} {placement : Placement} {word : String}
    (hc : o.criterion? (.text word) = some (.pattern placement false false word))
    (fieldAlias : Value) (ids : IdSource) {field : Value} (hfield : field.isNull = false)
    {Occurs : String → Prop} (hcovers : ∀ text : String,
      Like.CoversBody (· = ·) (placement.pattern word).toList text.toList ↔ Occurs text) :
    ∃ op left, compileFind .full fieldAlias (o.condition (.text word)) ids = .ok op left ∧
      (∀ text, field.text? = some text → ∃ found, evaluate .full op field = .ok found ∧
        Like.Finds [.dotAll] (placement.pattern word) text found ∧
        (found = true ↔ Occurs text)) ∧
      (field.text? = none → evaluate .full op field = .error .unwrittenNumber) := by
  obtain ⟨op, left, hop, hevaluate⟩ := exists_compileFind_pattern hc fieldAlias ids
  refine ⟨op, left, hop, fun text htext ↦ ?_, fun hnone ↦ ?_⟩
  · refine ⟨_, ?_, Like.finds_matchesBy false _ _,
      (Like.matchesBy_iff fun _ _ ↦ beq_iff_eq).trans (hcovers text)⟩
    rw [hevaluate field hfield, liked_of_text? rfl htext, Except.map, Bool.bne_false]
    rfl
  · rw [hevaluate field hfield, liked_of_text?_eq_none (Or.inr hnone)]
    rfl

/-- A text without wildcards is looked for as it is, wherever there are line breaks: anywhere in the
text of a value, or at its front. -/
theorem contains_and_startsWith_find_texts {word : String} (hword : Like.IsPlain word.toList)
    (fieldAlias : Value) (ids : IdSource) {field : Value} (hfield : field.isNull = false) :
    (∃ op left, compileFind .full fieldAlias
        (Operator.contains.condition (.text word)) ids = .ok op left ∧
      (∀ text, field.text? = some text → ∃ found, evaluate .full op field = .ok found ∧
        Like.Finds [.dotAll] ("%" ++ word ++ "%") text found ∧
        (found = true ↔ word.toList <:+: text.toList)) ∧
      (field.text? = none → evaluate .full op field = .error .unwrittenNumber)) ∧
    ∃ op left, compileFind .full fieldAlias
        (Operator.startsWith.condition (.text word)) ids = .ok op left ∧
      (∀ text, field.text? = some text → ∃ found, evaluate .full op field = .ok found ∧
        Like.Finds [.dotAll] (word ++ "%") text found ∧
        (found = true ↔ word.toList <+: text.toList)) ∧
      (field.text? = none → evaluate .full op field = .error .unwrittenNumber) := by
  have hcontains : Operator.contains.criterion? (.text word) =
      some (.pattern .anywhere false false word) := rfl
  have hstarts : Operator.startsWith.criterion? (.text word) =
      some (.pattern .atStart false false word) := rfl
  have hanywhere : (Placement.anywhere.pattern word).toList = '%' :: (word.toList ++ ['%']) := by
    simp [Placement.pattern]
  have hatStart : (Placement.atStart.pattern word).toList = word.toList ++ ['%'] := by
    simp [Placement.pattern]
  constructor
  · refine exists_compileFind_exactly hcontains fieldAlias ids hfield fun text ↦ ?_
    rw [hanywhere]
    exact Like.coversBody_run_append_run_iff hword
  · refine exists_compileFind_exactly hstarts fieldAlias ids hfield fun text ↦ ?_
    rw [hatStart]
    exact Like.coversBody_append_run_iff hword

/-- Braces, a point, a star and a line break stand for themselves. -/
theorem contains_and_startsWith_find_texts_signs :
    ∃ (word : String) (field : Value) (op op' : FindOperator) (left left' : IdSource),
      word = "\x7b0\x7d.*\n" ∧ field = .text "x\x7b0\x7d.*\n\n" ∧
      compileFind .full (.text "note") (Operator.contains.condition (.text word)) .standard =
        .ok op left ∧
      evaluate .full op field = .ok true ∧
      compileFind .full (.text "note") (Operator.startsWith.condition (.text word)) .standard =
        .ok op' left' ∧
      evaluate .full op' field = .ok false := by
  have hword : Like.IsPlain "\x7b0\x7d.*\n".toList := by simp [Like.IsPlain]
  have hfield : (Value.text "x\x7b0\x7d.*\n\n").isNull = false := rfl
  obtain ⟨⟨op, left, hop, hcontains, -⟩, op', left', hop', hstarts, -⟩ :=
    contains_and_startsWith_find_texts hword (.text "note") .standard hfield
  obtain ⟨found, hfound, -, hinfix⟩ := hcontains _ rfl
  obtain ⟨found', hfound', -, hprefix⟩ := hstarts _ rfl
  obtain rfl : found = true := hinfix.mpr ⟨['x'], ['\n'], rfl⟩
  obtain rfl : found' = false :=
    Bool.eq_false_iff.mpr fun h ↦ by simpa [Value.toText] using hprefix.mp h
  exact ⟨_, _, op, op', left, left', rfl, rfl, hop, hfound, hop', hfound'⟩

end Memory

end Criteria
