import Mathlib.Data.List.Basic
import Criteria.Sql.BoundText

/-!
# Values supplied to a text

Supplying values changes the binds of a text and neither their names nor their order, and it fails
only for a name that is no placeholder.  Of several values for one name the last is kept.
-/

namespace Criteria.Sql.BoundText

/-- A bind after values have been supplied, of which each replaces the one before. -/
def settle (supplies : List (String × Supply)) (b : String × Supply) : String × Supply :=
  supplies.foldl (fun kept s ↦ if kept.1 = s.1 then s else kept) b

theorem settle_cons (s b : String × Supply) (rest : List (String × Supply)) :
    settle (s :: rest) b = settle rest (if b.1 = s.1 then s else b) :=
  rfl

theorem settle_fst (supplies : List (String × Supply)) (b : String × Supply) :
    (settle supplies b).1 = b.1 := by
  induction supplies generalizing b with
  | nil => rfl
  | cons s rest ih =>
      rw [settle_cons, ih]
      split
      · next heq => exact heq.symm
      · rfl

theorem settle_of_notMem {supplies : List (String × Supply)} {b : String × Supply}
    (h : b.1 ∉ supplies.map (·.1)) : settle supplies b = b := by
  induction supplies with
  | nil => rfl
  | cons s rest ih =>
      rw [List.map_cons, List.mem_cons, not_or] at h
      rw [settle_cons, if_neg h.1, ih h.2]

/-- A value for a name that is supplied once is kept. -/
theorem settle_of_mem {supplies : List (String × Supply)} (hnodup : (supplies.map (·.1)).Nodup)
    {s b : String × Supply} (hs : s ∈ supplies) (hname : b.1 = s.1) : settle supplies b = s := by
  induction supplies generalizing b with
  | nil => cases hs
  | cons first rest ih =>
      rw [List.map_cons, List.nodup_cons] at hnodup
      obtain ⟨hfirst, hrest⟩ := hnodup
      rw [settle_cons]
      rcases List.mem_cons.mp hs with rfl | hs
      · rw [if_pos hname, settle_of_notMem hfirst]
      · have hne : b.1 ≠ first.1 := by
          intro heq
          exact hfirst (heq ▸ hname ▸ List.mem_map_of_mem hs)
        rw [if_neg hne]
        exact ih hrest hs hname

theorem asksFor_iff {t : BoundText} {name : String} :
    t.asksFor name = true ↔ name ∈ t.binds.map (·.1) := by
  simp [asksFor]

/-- A text without values asks for its placeholders. -/
theorem asksFor_bare_iff {text name : String} :
    (bare text).asksFor name = true ↔ name ∈ placeholderNames text := by
  rw [asksFor_iff, bare, List.map_map]
  simp [Function.comp_def]

theorem supply_eq_ok_iff {name : String} {supplied : Supply} {t t' : BoundText} :
    t.supply name supplied = .ok t' ↔ t.asksFor name = true ∧
      t' = { t with binds := t.binds.map (settle [(name, supplied)]) } := by
  rw [supply]
  split
  · next hasks =>
      constructor
      · intro h
        exact ⟨hasks, (Except.ok.inj h).symm⟩
      · rintro ⟨-, rfl⟩
        rfl
  · next hasks => simp [hasks]

theorem asksFor_map_settle (t : BoundText) (supplies : List (String × Supply)) (name : String) :
    BoundText.asksFor { t with binds := t.binds.map (settle supplies) } name = t.asksFor name := by
  simp [asksFor, settle_fst, Function.comp_def]

/-- Supplying succeeds when each value is for a placeholder, and then settles every bind. -/
theorem supplyAll_eq_ok_iff {supplies : List (String × Supply)} {t t' : BoundText} :
    t.supplyAll supplies = .ok t' ↔ (∀ s ∈ supplies, t.asksFor s.1 = true) ∧
      t' = { t with binds := t.binds.map (settle supplies) } := by
  induction supplies generalizing t with
  | nil =>
      have hnone : t.binds.map (settle []) = t.binds := List.map_id t.binds
      simp only [supplyAll, List.not_mem_nil, false_implies, implies_true, true_and, hnone,
        Except.ok.injEq]
      exact eq_comm
  | cons s rest ih =>
      obtain ⟨name, supplied⟩ := s
      have hsettle : (t.binds.map (settle [(name, supplied)])).map (settle rest) =
          t.binds.map (settle ((name, supplied) :: rest)) := by
        simp [settle, Function.comp_def]
      rw [supplyAll]
      cases hfirst : t.supply name supplied with
      | error fault =>
          have hasks : ¬t.asksFor name = true := by
            intro hasks
            have hok : t.supply name supplied =
                .ok { t with binds := t.binds.map (settle [(name, supplied)]) } :=
              supply_eq_ok_iff.mpr ⟨hasks, rfl⟩
            rw [hfirst] at hok
            cases hok
          simp [hasks]
      | ok middle =>
          -- Settling leaves the names alone, so the text asks for the others as before.
          obtain ⟨hasks, rfl⟩ := supply_eq_ok_iff.mp hfirst
          simp only [ih, asksFor_map_settle, hsettle, List.mem_cons, forall_eq_or_imp, hasks,
            true_and]

/-! ## Parameters of a fragment -/

/-- What a parameter supplies when some names stand for lists. -/
def supplyIn (spreadNames : List String) (p : String × Value) : String × Supply :=
  supplyOf p.1 ⟨p.2, spreadNames.contains p.1⟩

/-- Every parameter whose name stands for a list has a value that can be spread out. -/
def AllSpread (spreadNames : List String) (parameters : Parameters) : Prop :=
  ∀ p ∈ parameters, spreadNames.contains p.1 = true → checkSpread p.2 = .ok ()

theorem suppliesOf_eq_ok_iff {spreadNames : List String} {parameters : Parameters}
    {supplies : List (String × Supply)} : suppliesOf spreadNames parameters = .ok supplies ↔
      AllSpread spreadNames parameters ∧ supplies = parameters.map (supplyIn spreadNames) := by
  induction parameters generalizing supplies with
  | nil => simp [suppliesOf, AllSpread, eq_comm]
  | cons p rest ih =>
      obtain ⟨name, value⟩ := p
      have hcheck : AllSpread spreadNames ((name, value) :: rest) ↔
          (if spreadNames.contains name then checkSpread value else .ok ()) = .ok () ∧
            AllSpread spreadNames rest := by
        simp only [AllSpread, List.mem_cons, forall_eq_or_imp]
        split <;> simp_all
      rw [suppliesOf, hcheck]
      cases hfirst : (if spreadNames.contains name then checkSpread value else .ok ()) with
      | error fault => simp
      | ok _ =>
          cases hrest : suppliesOf spreadNames rest with
          | error fault =>
              have hfails : ¬AllSpread spreadNames rest := by
                intro hall
                have hok : suppliesOf spreadNames rest =
                    .ok (rest.map (supplyIn spreadNames)) := ih.mpr ⟨hall, rfl⟩
                rw [hrest] at hok
                cases hok
              simp [hfails]
          | ok others =>
              obtain ⟨hall, rfl⟩ := ih.mp hrest
              simp only [hall, Except.ok.injEq, and_self, true_and, List.map_cons]
              exact eq_comm

/-- The statement of a fragment, with its lists taken out. -/
def statementOf (query : String) : String := String.ofList ((signs query).flatMap Sign.chars)

/-- The names of the lists of a fragment. -/
def listNames (query : String) : List String := (signs query).filterMap Sign.spreadName?

/-- What the parameters of a fragment supply. -/
def suppliesIn (query : String) (parameters : Parameters) : List (String × Supply) :=
  parameters.map (supplyIn (listNames query))

/-- A fragment becomes a text when its lists can be spread out and its parameters are asked for. -/
theorem ofFragment_eq_ok_iff {query : String} {parameters : Parameters} {t : BoundText} :
    ofFragment query parameters = .ok t ↔ AllSpread (listNames query) parameters ∧
      (∀ s ∈ suppliesIn query parameters, s.1 ∈ placeholderNames (statementOf query)) ∧
      t = ⟨statementOf query,
        (bare (statementOf query)).binds.map (settle (suppliesIn query parameters))⟩ := by
  cases hsupplies : suppliesOf (listNames query) parameters with
  | error fault =>
      have hfails : ¬AllSpread (listNames query) parameters := by
        intro hall
        have hok : suppliesOf (listNames query) parameters =
            .ok (suppliesIn query parameters) := suppliesOf_eq_ok_iff.mpr ⟨hall, rfl⟩
        rw [hsupplies] at hok
        cases hok
      rw [listNames] at hsupplies
      simp only [ofFragment, hsupplies, hfails, false_and, reduceCtorEq]
  | ok supplies =>
      obtain ⟨hall, rfl⟩ := suppliesOf_eq_ok_iff.mp hsupplies
      have hresult : ofFragment query parameters =
          (bare (statementOf query)).supplyAll (suppliesIn query parameters) := by
        rw [listNames] at hsupplies
        simp only [ofFragment, hsupplies]
        rfl
      simp only [hresult, supplyAll_eq_ok_iff, asksFor_bare_iff, hall, true_and]
      rfl

end Criteria.Sql.BoundText
