import Criteria.Memory.Evaluator
import Criteria.Proofs.Comparisons
import Criteria.Proofs.Language
import Criteria.Proofs.Names
import Criteria.Proofs.Wording

/-!
# Bound documents

Each of the three relations between documents holds of a document and itself.  A field that holds
the text that a document operator binds therefore satisfies the operator.
-/

namespace Criteria

/-! ## Operators -/

namespace Operator

/-- The operators that compare a field with a document. -/
def IsRelation (o : Operator) : Prop := o = jsonContains ∨ o = jsonContained ∨ o = jsonEquals

theorem IsRelation.exists_criterion? {o : Operator} (h : o.IsRelation) :
    ∃ relation, ∀ {v : Value} {json : String}, Json.write? v = some json →
      o.criterion? v = some (.document relation v json) := by
  rcases h with rfl | rfl | rfl
  · exact ⟨.contains, fun hjson ↦ by rw [criterion?, Criterion.document?, hjson]; rfl⟩
  · exact ⟨.contained, fun hjson ↦ by rw [criterion?, Criterion.document?, hjson]; rfl⟩
  · exact ⟨.equals, fun hjson ↦ by rw [criterion?, Criterion.document?, hjson]; rfl⟩

/-- A field that holds a text which reads as the operand is in each relation with the operand. -/
theorem IsRelation.evaluate_eq_true {o : Operator} (h : o.IsRelation) {v : Value}
    (hv : v.IsStandard) {json : String} (hjson : Json.decoded (.text json) = v)
    (template : String) (parameters : Parameters) :
    Memory.evaluate .full (.raw v template parameters (some o)) (.text json) = .ok true := by
  have hcontains := Memory.contains_self hv.isWritable
  have hequal := hv.equality_self
  rcases h with rfl | rfl | rfl
  · change Fault.ofVerdict (Memory.contains (Json.decoded (.text json)) v) = .ok true
    rw [hjson, hcontains]
    rfl
  · change Fault.ofVerdict (Memory.contains v (Json.decoded (.text json))) = .ok true
    rw [hjson, hcontains]
    rfl
  · change Fault.ofVerdict ((Json.decoded (.text json)).equality v) = .ok true
    rw [hjson, hequal]
    rfl

/-- What is admitted differs by the operand and its text alone. -/
theorem IsRelation.exists_admission {o : Operator} (h : o.IsRelation) {registry : Registry}
    (ho : o ∈ registry) : ∃ relation, ∀ {v : Value} {json : String}, Json.write? v = some json →
      v ≠ .null → admission registry (.dict [(.text o.token, v)]) =
        .ok (.criterion o (.document relation v json)) := by
  obtain ⟨relation, hcriterion⟩ := h.exists_criterion?
  exact ⟨relation, fun hjson hnull ↦
    admission_object_eq_ok_iff.mpr ⟨hnull, ho, _, hcriterion hjson, rfl⟩⟩

theorem IsRelation.admission_eq {o : Operator} (h : o.IsRelation) {v : Value} {json : String}
    (hjson : Json.write? v = some json) (hnull : v ≠ .null) {registry : Registry}
    (ho : o ∈ registry) : ∃ relation,
      admission registry (.dict [(.text o.token, v)]) =
        .ok (.criterion o (.document relation v json)) := by
  obtain ⟨relation, hadmission⟩ := h.exists_admission ho
  exact ⟨relation, hadmission hjson hnull⟩

end Operator

/-- The operators that compare a field with a document bind one text for an operand.  It reads as
the operand, and a field that holds it satisfies each of them. -/
theorem Value.IsStandard.bound_text_reads_back {v : Value} (hv : v.IsStandard)
    (hnull : v ≠ .null) : ∃ json, Json.read? json.toList = some v ∧
      (Json.decoded (.text json)).equality v = .yes ∧
      ∀ (registry : Registry) (o : Operator), o.IsRelation → o ∈ registry →
        ∀ (fieldAlias : Value) (ids : IdSource),
          (∃ template name op,
            compileFind registry fieldAlias (.dict [(.text o.token, v)]) ids =
              .ok op ids.advance ∧
            op = .raw v template [(name, .text json)] (some o) ∧
            Memory.evaluate .full op (.text json) = .ok true) ∧
          (checkAlias fieldAlias = .ok () → IsPlain ids.current.toList → ∃ f,
            compileFragment registry fieldAlias (.dict [(.text o.token, v)]) ids =
              .ok f ids.advance) ∧
          ∀ f ids', compileFragment registry fieldAlias (.dict [(.text o.token, v)]) ids =
            .ok f ids' → ∃ name, f.parameters = [(name, .text json)] := by
  obtain ⟨json, hwritten, hread⟩ := Json.exists_write? hv
  have hdecoded := Json.decoded_of_read? hread
  refine ⟨json, hread, by rw [hdecoded]; exact hv.equality_self, ?_⟩
  intro registry o hrelation ho fieldAlias ids
  obtain ⟨relation, hadmitted⟩ := hrelation.admission_eq hwritten hnull ho
  refine ⟨?_, ?_, ?_⟩
  · refine ⟨_, _, _, compileFind_eq_ok_iff.mpr ⟨_, hadmitted, rfl, rfl⟩, rfl, ?_⟩
    exact hrelation.evaluate_eq_true hv hdecoded _ _
  · intro halias hplain
    obtain ⟨f, hf⟩ := (Admitted.criterion o (.document relation v json)).exists_fragment hplain
      fieldAlias
    exact ⟨f, compileFragment_eq_ok_iff.mpr ⟨halias, _, hadmitted, hf, rfl⟩⟩
  · intro f ids' h
    obtain ⟨-, a, ha, hf, -⟩ := compileFragment_eq_ok_iff.mp h
    obtain rfl := Except.ok.inj (hadmitted.symm.trans ha)
    have hfragment : (Criterion.document relation v json).fragment
        (.create ids.current o.name fieldAlias) = .ok f := hf
    obtain ⟨query, -, rfl⟩ := Criterion.fragment_document hfragment
    exact ⟨_, rfl⟩

/-- A document with escapes, a character beyond the units, numbers of both kinds and a missing
value. -/
def Value.sampleDocument : Value :=
  .dict (entriesOf [("a\"\n", .list [.int (-12), .float (.finite false 6755399441055744 (-52)),
    .bool true, .null]), ("𝄞", .dict (entriesOf [("", .text "\x7f")]))])

theorem Value.sampleDocument_bound_text_reads_back : sampleDocument.IsStandard ∧
    sampleDocument ≠ .null ∧ ∃ json, Json.read? json.toList = some sampleDocument ∧
      (Json.decoded (.text json)).equality sampleDocument = .yes ∧
      ∀ o ∈ [Operator.jsonContains, .jsonContained, .jsonEquals],
        (∃ template name op, compileFind .full (.text "entity.meta")
            (.dict [(.text o.token, sampleDocument)]) .standard = .ok op IdSource.standard.advance ∧
          op = .raw sampleDocument template [(name, .text json)] (some o) ∧
          Memory.evaluate .full op (.text json) = .ok true) ∧
        ∃ f, compileFragment .full (.text "entity.meta")
            (.dict [(.text o.token, sampleDocument)]) .standard = .ok f IdSource.standard.advance ∧
          ∃ name, f.parameters = [(name, .text json)] := by
  have hfloat : Number.Double.IsNormal 6755399441055744 (-52) := by
    constructor <;> norm_num
  have hlist : ∀ v ∈ [Value.int (-12), .float (.finite false 6755399441055744 (-52)), .bool true,
      .null], v.IsStandard := by
    simp only [List.forall_mem_cons]
    exact ⟨.int (by decide), .float hfloat false, .bool true, .null, List.forall_mem_nil _⟩
  have hstandard : sampleDocument.IsStandard := by
    refine .dict (by decide) ?_
    simp only [List.forall_mem_cons]
    refine ⟨.list hlist, .dict (by decide) ?_, List.forall_mem_nil _⟩
    simp only [List.forall_mem_cons]
    exact ⟨.text _, List.forall_mem_nil _⟩
  have hnull : sampleDocument ≠ .null := dict_ne_null
  obtain ⟨json, hread, hequal, hbound⟩ := hstandard.bound_text_reads_back hnull
  refine ⟨hstandard, hnull, json, hread, hequal, fun o ho ↦ ?_⟩
  have hrelation : o.IsRelation := by simpa [Operator.IsRelation] using ho
  have hregistered : o ∈ Registry.full := by
    rcases hrelation with rfl | rfl | rfl <;> decide
  obtain ⟨hfind, hfragment, hparameters⟩ :=
    hbound .full o hrelation hregistered (.text "entity.meta") .standard
  obtain ⟨f, hf⟩ := hfragment rfl (by decide)
  exact ⟨hfind, f, hf, hparameters f _ hf⟩

end Criteria
