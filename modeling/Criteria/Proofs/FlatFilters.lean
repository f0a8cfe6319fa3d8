import Criteria.Proofs.Failure
import Criteria.Proofs.Rejections
import Criteria.Proofs.Staging
import Criteria.Proofs.Visits

/-!
# Flat filters

A flat filter is written to its sink clause by clause and reports the faults of its conditions as
they are.  A tree with the same entries is staged first, looks for relations and logical keys, and
reports each fault with its field.  On fields without a point that are no logical keys both do the
same, and they fail at the same field.
-/

namespace Criteria

open Clause (Path Sink Builder)
open FilterTree (applyLeaf applyEntries)

/-- Entries whose keys are names of fields without a point, and no logical keys. -/
def IsFlat (entries : List (Value × Value)) : Prop :=
  ∀ entry ∈ entries, ∃ field, entry.1 = .text field ∧ '.' ∉ field.toList ∧
    field ≠ "$and" ∧ field ≠ "$or"

variable {registry : Registry} {base : Value} {σ : Type} [Sink σ]

theorem logicalKey?_eq_none {field : String} (hand : field ≠ "$and") (hor : field ≠ "$or") :
    logicalKey? (.text field) = none := by
  cases hkey : logicalKey? (.text field) with
  | none => rfl
  | some key =>
      have hfield : field = key.token := Value.text.inj (FilterTree.logicalKey?_eq_some hkey)
      cases key with
      | and => exact absurd hfield hand
      | or => exact absurd hfield hor

/-- A field without a point belongs to the base alias, so a condition on it is a leaf. -/
theorem applyLeaf_eq_applyCondition {field : String} (h : '.' ∉ field.toList) (path : Path)
    (condition : Value) :
    (applyLeaf registry base path .and (.text field) condition : Composing σ Unit) =
      applyCondition registry path base (.text field) condition (.text Join.and.keyword) := by
  have halias : resolveAlias (.text field) base = .ok (baseAlias (.text field) base) := by
    rw [resolveAlias, if_neg (by simpa using h)]
  rw [applyLeaf, halias, applyCondition, Clause.joinOf_keyword]

theorem applyEntries_cons_flat {field : String} (hpoint : '.' ∉ field.toList)
    (hkey : logicalKey? (.text field) = none) (path : Path) (condition : Value)
    (rest : List (Value × Value)) :
    (applyEntries registry base path .and ((.text field, condition) :: rest) : Composing σ Unit) =
      Composing.reporting (Fault.atField (.text field))
        (applyCondition registry path base (.text field) condition (.text Join.and.keyword)) >>=
        fun _ ↦ applyEntries registry base path .and rest := by
  rw [applyEntries, hkey]
  dsimp only
  rw [applyLeaf_eq_applyCondition hpoint]

/-- Entry by entry a flat filter and a tree do the same, up to the first condition that fails.  Only
the tree reports its field. -/
theorem applyFlatEntries_alongside {entries : List (Value × Value)} (hflat : IsFlat entries)
    (path : Path) (s : Composition σ) :
    (∃ s', applyFlatEntries registry path base entries s = .ok () s' ∧
      applyEntries registry base path .and entries s = .ok () s') ∨
    ∃ done field condition rest middle fault s',
      entries = done ++ (.text field, condition) :: rest ∧
      applyFlatEntries registry path base done s = .ok () middle ∧
      applyCondition registry path base (.text field) condition (.text Join.and.keyword) middle =
        .error fault s' ∧
      applyFlatEntries registry path base entries s = .error fault s' ∧
      applyEntries registry base path .and entries s =
        .error (Fault.atField (.text field) fault) s' := by
  induction entries generalizing s with
  | nil => exact Or.inl ⟨s, rfl, rfl⟩
  | cons entry rest ih =>
      obtain ⟨key, condition⟩ := entry
      obtain ⟨⟨field, hfield, hpoint, hand, hor⟩, hrest⟩ := List.forall_mem_cons.mp hflat
      obtain rfl : key = .text field := hfield
      rw [applyEntries_cons_flat hpoint (logicalKey?_eq_none hand hor)]
      cases hfirst : applyCondition registry path base (.text field) condition
          (.text Join.and.keyword) s with
      | error fault s' =>
          refine Or.inr ⟨[], field, condition, rest, s, fault, s', rfl, rfl, hfirst,
            bind_eq_error_iff.mpr (Or.inl hfirst), bind_eq_error_iff.mpr (Or.inl ?_)⟩
          rw [Composing.reporting, hfirst]
      | ok _ middle =>
          have hreported : Composing.reporting (Fault.atField (.text field))
              (applyCondition registry path base (.text field) condition
                (.text Join.and.keyword)) s = .ok () middle :=
            Composing.reporting_eq_ok_iff.mpr hfirst
          rcases ih hrest middle with ⟨s', hflatRest, htreeRest⟩ |
            ⟨done, failing, other, others, before, fault, s', rfl, hdone, hfail, hflatRest,
              htreeRest⟩
          · exact Or.inl ⟨s', bind_unit_eq_ok_iff.mpr ⟨middle, hfirst, hflatRest⟩,
              bind_unit_eq_ok_iff.mpr ⟨middle, hreported, htreeRest⟩⟩
          · exact Or.inr ⟨(.text field, condition) :: done, failing, other, others, before, fault,
              s', rfl, bind_unit_eq_ok_iff.mpr ⟨middle, hfirst, hdone⟩, hfail,
              bind_eq_error_iff.mpr (Or.inr ⟨(), middle, hfirst, hflatRest⟩),
              bind_eq_error_iff.mpr (Or.inr ⟨(), middle, hreported, htreeRest⟩)⟩

/-! ## From an empty builder -/

/-- A condition fails by itself or because of a name that is bound, and never with a place in a tree
of its own. -/
theorem atField_of_applyCondition {path : Path} {field : String} {condition : Value} {join : Join}
    {c c' : Composition Builder} {cause : ConditionFault}
    (h : applyCondition registry path base (.text field) condition (.text join.keyword) c =
      .error (.condition cause) c') :
    Fault.atField (.text field) (.condition cause) =
      .condition (.located (.text field) none cause (some cause)) := by
  have hplace : ∀ inner place other chained, cause ≠ .located inner place other chained := by
    rintro inner place other chained rfl
    simp only [applyCondition, Clause.joinOf_keyword] at h
    rcases bind_eq_error_iff.mp h with h | ⟨f, middle, -, h⟩
    · rw [Composing.onIds] at h
      cases hcompile : compileFragment registry (.text (baseAlias (.text field) base)) condition
          c.ids with
      | ok f ids => simp [hcompile] at h
      | error fault ids =>
          simp only [hcompile, EStateM.Result.error.injEq] at h
          have helementary : fault.IsElementary := isElementary_of_compileFragment hcompile
          rw [h.1] at helementary
          exact helementary
    · obtain ⟨sink, hadd, -⟩ := Composing.onSink_eq_error_iff.mp h
      obtain ⟨name, -, hname, -⟩ := Builder.addTo_eq_error_iff.mp hadd
      cases hname
  cases cause with
  | located inner place other chained => exact absurd rfl (hplace inner place other chained)
  | _ => rfl

/-- An empty builder accepts what was written to an empty builder. -/
theorem apply_eq_ok_iff_applyEntries {join : Join} {entries : List (Value × Value)}
    {b : Builder} {ids ids' : IdSource} :
    FilterTree.apply registry base [] (.text join.keyword) (.dict entries) ⟨Builder.empty, ids⟩ =
        .ok () ⟨b, ids'⟩ ↔
      applyEntries registry base [] join entries ⟨Builder.empty, ids⟩ = .ok () ⟨b, ids'⟩ := by
  refine ⟨FilterTree.applyTree_eq_ok_of_apply, fun h ↦ ?_⟩
  obtain ⟨items, hitems, hreplay⟩ := FilterTree.applyEntries_eq_ok_iff.mp h
  obtain ⟨hbind, -⟩ := Builder.replay_eq_ok_iff.mp hreplay
  exact FilterTree.apply_eq_ok_iff.mpr
    ⟨join, entries, items, Clause.joinOf_keyword join, rfl, hitems, hbind, hreplay⟩

theorem apply_eq_error_of_applyEntries {join : Join} {entries : List (Value × Value)}
    {ids : IdSource} {fault : Fault} {c : Composition Builder}
    (h : applyEntries registry base [] join entries ⟨Builder.empty, ids⟩ = .error fault c) :
    FilterTree.apply registry base [] (.text join.keyword) (.dict entries) ⟨Builder.empty, ids⟩ =
      .error fault ⟨Builder.empty, c.ids⟩ := by
  simp only [FilterTree.apply, Clause.joinOf_keyword, FilterTree.stage, FilterTree.applyTree, h]

/-- Starting from an empty builder, a flat filter succeeds just when the tree with the same entries
does, and both leave the same builder and draw the same identifiers.  When the filter fails, it
fails at a field, after the entries before it have succeeded.  Then the tree fails too, and a fault
of that field's condition is the cause of the tree's fault, which is raised from it and whose field
and path are that field. -/
theorem flat_filter_agrees_with_tree {entries : List (Value × Value)} (hflat : IsFlat entries)
    (registry : Registry) (base : Value) (ids : IdSource) :
    (∀ (b : Builder) (ids' : IdSource),
      applyFilters registry [] base (.dict entries) ⟨Builder.empty, ids⟩ = .ok () ⟨b, ids'⟩ ↔
        FilterTree.apply registry base [] (.text Join.and.keyword) (.dict entries)
          ⟨Builder.empty, ids⟩ = .ok () ⟨b, ids'⟩) ∧
    ∀ (fault : Fault) (b : Builder) (ids' : IdSource),
      applyFilters registry [] base (.dict entries) ⟨Builder.empty, ids⟩ =
        .error fault ⟨b, ids'⟩ →
      ∃ (done : List (Value × Value)) (field : String) (condition : Value)
        (rest : List (Value × Value)) (middle : Composition Builder) (reported : Fault),
        entries = done ++ (.text field, condition) :: rest ∧
        applyFilters registry [] base (.dict done) ⟨Builder.empty, ids⟩ = .ok () middle ∧
        applyCondition registry [] base (.text field) condition (.text Join.and.keyword) middle =
          .error fault ⟨b, ids'⟩ ∧
        FilterTree.apply registry base [] (.text Join.and.keyword) (.dict entries)
          ⟨Builder.empty, ids⟩ = .error reported ⟨Builder.empty, ids'⟩ ∧
        (∀ cause, fault = .condition cause → ∃ path,
          reported = .condition (.located (.text field) path cause (some cause)) ∧
          ConditionFault.position (.text field) path = .text field) ∧
        ((∀ cause, fault ≠ .condition cause) → reported = fault) := by
  have halong := @applyFlatEntries_alongside registry base Builder _ entries hflat []
    ⟨Builder.empty, ids⟩
  constructor
  · intro b ids'
    rw [apply_eq_ok_iff_applyEntries, applyFilters]
    rcases halong with ⟨s', hfilter, htree⟩ | ⟨_, _, _, _, _, fault, s', -, -, -, hfilter, htree⟩
    · rw [hfilter, htree]
    · rw [hfilter, htree]
      exact ⟨nofun, nofun⟩
  · intro fault b ids' h
    rw [applyFilters] at h
    rcases halong with ⟨s', hfilter, -⟩ |
      ⟨done, field, condition, rest, middle, other, s', hsplit, hdone, hfail, hfilter, htree⟩
    · cases hfilter.symm.trans h
    · obtain ⟨rfl, rfl⟩ : other = fault ∧ s' = ⟨b, ids'⟩ := by simpa [hfilter] using h
      refine ⟨done, field, condition, rest, middle, _, hsplit, hdone, hfail,
        apply_eq_error_of_applyEntries htree, ?_, fun hother ↦ ?_⟩
      · rintro cause rfl
        exact ⟨none, atField_of_applyCondition hfail, rfl⟩
      · cases other with
        | condition cause => exact absurd rfl (hother cause)
        | _ => rfl

/-- Two fields that make the same name of a parameter from one identifier. -/
theorem flat_filter_agrees_with_tree_collision :
    ∃ (entries : List (Value × Value)) (name : String) (b : Builder) (path : Option String),
      entries = [(.text "a-b", .int 1), (.text "a_b", .int 2)] ∧ IsFlat entries ∧
      applyFilters Registry.full [] (.text "e") (.dict entries)
        ⟨Builder.empty, .constant "x"⟩ =
          .error (.condition (.nameBound name)) ⟨b, .constant "x"⟩ ∧
      FilterTree.apply Registry.full (.text "e") [] (.text Join.and.keyword) (.dict entries)
        ⟨Builder.empty, .constant "x"⟩ =
          .error (.condition (.located (.text "a_b") path (.nameBound name)
            (some (.nameBound name)))) ⟨Builder.empty, .constant "x"⟩ ∧
      ConditionFault.position (.text "a_b") path = .text "a_b" := by
  obtain ⟨entries, name, b, hentries, hflat, hfilter, htree⟩ :
      ∃ (entries : List (Value × Value)) (name : String) (b : Builder),
        entries = [(.text "a-b", .int 1), (.text "a_b", .int 2)] ∧ IsFlat entries ∧
        applyFilters Registry.full [] (.text "e") (.dict entries) ⟨Builder.empty, .constant "x"⟩ =
          .error (.condition (.nameBound name)) ⟨b, .constant "x"⟩ ∧
        FilterTree.apply Registry.full (.text "e") [] (.text Join.and.keyword) (.dict entries)
          ⟨Builder.empty, .constant "x"⟩ =
            .error (.condition (.located (.text "a_b") none (.nameBound name)
              (some (.nameBound name)))) ⟨Builder.empty, .constant "x"⟩ := by
    refine ⟨_, _, _, rfl, ?_, rfl, rfl⟩
    intro entry hentry
    rcases List.mem_cons.mp hentry with rfl | hentry
    · exact ⟨"a-b", rfl, by decide, by decide, by decide⟩
    · obtain rfl := List.mem_singleton.mp hentry
      exact ⟨"a_b", rfl, by decide, by decide, by decide⟩
  obtain ⟨_, field, _, _, _, reported, -, -, -, happly, hcause, -⟩ :=
    (flat_filter_agrees_with_tree hflat Registry.full (.text "e") (.constant "x")).2 _ b _ hfilter
  obtain ⟨path, rfl, hposition⟩ := hcause _ rfl
  obtain ⟨rfl, rfl⟩ : field = "a_b" ∧ path = none := by simpa [htree, eq_comm] using happly
  exact ⟨entries, name, b, none, hentries, hflat, hfilter, happly, hposition⟩

end Criteria
