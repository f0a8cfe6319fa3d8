import Criteria.Proofs.Requests
import Criteria.Proofs.Statements

/-!
# What the parameters of a where clause keep

A builder accepts no name twice, so in what it renders each clause has the values that came with it.
A where clause of texts does not look at names.  What its statement has for a placeholder is the
last of the values that the texts have for it, and a clause that came with another one has lost it.
-/

namespace Criteria

namespace Parameters

theorem get?_append (ps qs : Parameters) (name : String) :
    get? (ps ++ qs) name = (ps.get? name).or (qs.get? name) := by
  rw [get?, List.find?_append, Option.map_or]
  rfl

theorem get?_eq_none_iff {ps : Parameters} {name : String} :
    ps.get? name = none ↔ ps.binds name = false := by
  simp [get?, binds]

theorem get?_ne_none_of_mem {ps : Parameters} {p : String × Value} (h : p ∈ ps) :
    ps.get? p.1 ≠ none := by
  rw [ne_eq, get?_eq_none_iff, Bool.not_eq_false]
  exact List.any_eq_true.mpr ⟨p, h, by simp⟩

end Parameters

theorem Parameters.areNamed_singleton {name : String} (h : name ≠ "") (value : Value) :
    AreNamed [(name, value)] := by
  constructor
  · intro p hp
    obtain rfl := List.mem_singleton.mp hp
    exact h
  · exact List.pairwise_singleton _ _

namespace Clause

open Sql (BoundText WhereClause Statement)

/-! ## Names that can be bound one after the other -/

/-- Fragments that have no name in common. -/
def Apart (f g : Fragment) : Prop := ∀ p ∈ g.parameters, f.parameters.binds p.1 = false

theorem Bindable.pairwise_apart {bound : Parameters} {fragments : List Fragment}
    (h : Bindable bound fragments) : fragments.Pairwise Apart := by
  induction fragments generalizing bound with
  | nil => exact .nil
  | cons f rest ih =>
      obtain ⟨-, hrest⟩ := h
      refine .cons (fun g hg p hp ↦ ?_) (ih hrest)
      have hbound := hrest.binds_eq_false p (List.mem_flatMap.mpr ⟨g, hg, hp⟩)
      rw [binds_append, Bool.or_eq_false_iff] at hbound
      exact hbound.2

/-- Among the parameters of fragments with different names, those of each are found. -/
theorem get?_parametersOf {fragments : List Fragment} (h : fragments.Pairwise Apart)
    {f : Fragment} (hf : f ∈ fragments) {p : String × Value} (hp : p ∈ f.parameters) :
    (parametersOf fragments).get? p.1 = f.parameters.get? p.1 := by
  induction fragments with
  | nil => cases hf
  | cons first rest ih =>
      obtain ⟨hfirst, hrest⟩ := List.pairwise_cons.mp h
      rw [parametersOf, List.flatMap_cons, Parameters.get?_append]
      rcases List.mem_cons.mp hf with rfl | hf
      · obtain ⟨v, hv⟩ := Option.ne_none_iff_exists'.mp (Parameters.get?_ne_none_of_mem hp)
        rw [hv, Option.some_or]
      · have hnone := Parameters.get?_eq_none_iff.mpr (hfirst f hf p hp)
        rw [hnone, Option.none_or]
        exact ih hrest hf

namespace Request

/-! ## Names of what is contributed -/

/-- A request whose parameters are named.  Those of a tree are named by its compiler. -/
def IsNamed : Request → Prop
  | clause _ _ _ parameters => parameters.AreNamed
  | _ => True

theorem IsNamed.areNamed_of_mem_contributes {request : Request} (h : request.IsNamed) :
    ∀ f ∈ request.contributes, f.parameters.AreNamed := by
  intro f hf
  cases request with
  | clause on join query parameters =>
      rw [contributes, Request.items] at hf
      cases hjoin : joinOf join with
      | error fault => simp [hjoin, Item.contents] at hf
      | ok j =>
          obtain rfl : f = ⟨query, parameters⟩ := by
            simpa [hjoin, Item.contents, Item.contentsOf] using hf
          exact h
  | group on join =>
      rw [contributes, Request.items] at hf
      cases hjoin : joinOf join <;> simp [hjoin, Item.contents, Item.contentsOf] at hf
  | tree on registry base join filter ids =>
      rw [contributes, Request.items] at hf
      cases hjoin : joinOf join with
      | error fault => simp [hjoin, Item.contents] at hf
      | ok j =>
          cases hstage : FilterTree.stage registry base j filter ids with
          | mk result left =>
              cases result with
              | error fault => simp [hjoin, hstage, Item.contents] at hf
              | ok staged =>
                  obtain ⟨entries, items, -, hitems, -, rfl⟩ := FilterTree.stage_eq_ok_iff.mp hstage
                  simp only [hjoin, hstage] at hf
                  exact hitems.forall_mem_contents Admitted.areNamed f hf

theorem areNamed_of_mem_contributions {requests : List Request}
    (h : ∀ request ∈ requests, request.IsNamed) :
    ∀ f ∈ contributions requests, f.parameters.AreNamed := by
  intro f hf
  obtain ⟨request, hrequest, hf⟩ := List.mem_flatMap.mp hf
  exact (h request hrequest).areNamed_of_mem_contributes f hf

end Request

/-! ## Values in a statement -/

namespace Session.GathersTexts

variable {s : Session WhereClause} {fragments : List Fragment}

theorem mem_atoms_iff (h : s.GathersTexts fragments) {t : BoundText} :
    t ∈ s.sink.atoms [] ↔ ∃ f ∈ fragments, boundText f = .ok t := by
  obtain ⟨texts, htexts, hperm⟩ := h.texts
  have hatoms : s.sink.atoms [] = Item.contents s.sink.items := s.sink.atoms_eq_contents []
  have hbound : (Except.ok t : Except Fault BoundText) ∈ fragments.map boundText ↔ t ∈ texts := by
    rw [htexts, List.mem_map]
    simp
  rw [hatoms, hperm.mem_iff, ← hbound, List.mem_map]

theorem isNamed_of_mem_atoms (h : s.GathersTexts fragments)
    (hnamed : ∀ f ∈ fragments, f.parameters.AreNamed) :
    ∀ t ∈ s.sink.atoms [], t.IsNamed := by
  intro t ht
  obtain ⟨f, hf, hbound⟩ := h.mem_atoms_iff.mp ht
  exact BoundText.isNamed_of_ofFragment hbound (hnamed f hf).ne_empty

/-- A parameter is in the statement when no text has another value for its placeholder. -/
theorem get?_params (h : s.GathersTexts fragments)
    (hnamed : ∀ f ∈ fragments, f.parameters.AreNamed) {st : Statement}
    (hst : s.sink.statement? [] = .ok (some st)) {f : Fragment} (hf : f ∈ fragments)
    {p : String × Value} (hp : p ∈ f.parameters)
    (hvalues : ∀ t ∈ s.sink.atoms [], ∀ v ∈ t.valuesFor p.1, v = p.2) :
    st.params.get? p.1 = some p.2 := by
  rw [WhereClause.get?_params_statement (h.isNamed_of_mem_atoms hnamed) hst]
  -- The text of the clause itself has a value for the name, so there is a last one.
  obtain ⟨texts, htexts, -⟩ := h.texts
  obtain ⟨t, -, hbound⟩ : ∃ t ∈ texts, .ok t = boundText f := by
    rw [← List.mem_map, ← htexts]
    exact List.mem_map_of_mem hf
  have ht : t ∈ s.sink.atoms [] := h.mem_atoms_iff.mpr ⟨f, hf, hbound.symm⟩
  obtain ⟨v, hv⟩ := List.exists_mem_of_ne_nil _
    (BoundText.valuesFor_of_ofFragment hbound.symm (hnamed f hf).ne_empty (hnamed f hf).nodup hp).1
  have hnonempty : (s.sink.atoms []).flatMap (BoundText.valuesFor p.1) ≠ [] :=
    List.ne_nil_of_mem (List.mem_flatMap.mpr ⟨t, ht, hv⟩)
  obtain ⟨u, hu, hlast⟩ := List.mem_flatMap.mp (List.getLast_mem hnonempty)
  rw [List.getLast?_eq_some_getLast hnonempty, hvalues u hu _ hlast]

end Session.GathersTexts

/-- Requests that all succeed, on a builder and on a where clause of texts, with whatever compilers
and identifiers.  In a builder no two of the clauses have a name in common, and each of them has its
own values in what is rendered.  In a where clause the statement has for a name the last of the
values that the texts have for the placeholder, so a clause has its own value when no other text has
a different one. -/
theorem bindings_of_requests (requests : List Request) :
    (∀ s : Session Builder, Request.performAll requests (.start Builder.empty) = .ok s →
      (Item.contents s.sink.items).Perm (Request.contributions requests) ∧
      (Request.contributions requests).Pairwise Apart ∧
      ∀ f ∈ Request.contributions requests, ∀ p ∈ f.parameters,
        (s.sink.build []).parameters.get? p.1 = f.parameters.get? p.1) ∧
    ∀ (s : Session WhereClause) (st : Statement), (∀ request ∈ requests, request.IsNamed) →
      Request.performAll requests (.start WhereClause.empty) = .ok s →
      s.sink.statement? [] = .ok (some st) →
      (∀ t, t ∈ s.sink.atoms [] ↔ ∃ f ∈ Request.contributions requests, boundText f = .ok t) ∧
      (∀ name, st.params.get? name =
        ((s.sink.atoms []).flatMap (BoundText.valuesFor name)).getLast?) ∧
      ∀ f ∈ Request.contributions requests, ∀ p ∈ f.parameters,
        (∀ t ∈ s.sink.atoms [], ∀ v ∈ t.valuesFor p.1, v = p.2) →
          st.params.get? p.1 = some p.2 := by
  constructor
  · intro s hs
    have hgathers := Request.performAll_induction Session.Gathers.perform Session.gathers_start hs
    rw [List.nil_append] at hgathers
    have hapart := hgathers.bindable.pairwise_apart
    have hbuild : (s.sink.build []).parameters = parametersOf (Request.contributions requests) :=
      hgathers.bound
    refine ⟨hgathers.contents, hapart, fun f hf p hp ↦ ?_⟩
    rw [hbuild]
    exact get?_parametersOf hapart hf hp
  · intro s st hrequests hs hst
    have hgathers :=
      Request.performAll_induction Session.GathersTexts.perform Session.gathersTexts_start hs
    rw [List.nil_append] at hgathers
    have hnamed := Request.areNamed_of_mem_contributions hrequests
    exact ⟨fun t ↦ hgathers.mem_atoms_iff,
      WhereClause.get?_params_statement (hgathers.isNamed_of_mem_atoms hnamed) hst,
      fun f hf p hp hvalues ↦ hgathers.get?_params hnamed hst hf hp hvalues⟩

/-- A tree, and a clause in a group of its own. -/
theorem bindings_of_requests_grouped : ∃ (requests : List Request) (s : Session Builder)
    (t : Session WhereClause) (st : Statement), (∀ request ∈ requests, request.IsNamed) ∧
      Request.performAll requests (.start Builder.empty) = .ok s ∧
      Request.performAll requests (.start WhereClause.empty) = .ok t ∧
      t.sink.statement? [] = .ok (some st) ∧ (Request.contributions requests).length = 2 ∧
      (∀ f ∈ Request.contributions requests, ∀ p ∈ f.parameters,
        (s.sink.build []).parameters.get? p.1 = f.parameters.get? p.1) ∧
      st.params.get? "p" = some (.int 1) := by
  obtain ⟨requests, s, t, st, hnamed, hs, ht, hst, hlength, hclause, hvalues⟩ :
      ∃ (requests : List Request) (s : Session Builder) (t : Session WhereClause) (st : Statement),
        (∀ request ∈ requests, request.IsNamed) ∧
        Request.performAll requests (.start Builder.empty) = .ok s ∧
        Request.performAll requests (.start WhereClause.empty) = .ok t ∧
        t.sink.statement? [] = .ok (some st) ∧ (Request.contributions requests).length = 2 ∧
        ⟨"a = :p", [("p", .int 1)]⟩ ∈ Request.contributions requests ∧
        (t.sink.atoms []).flatMap (BoundText.valuesFor "p") = [.int 1] := by
    refine ⟨[.tree 0 Registry.full (.text "e") (.text "AND") (.dict [(.text "name", .text "Ann")])
      IdSource.standard, .group 0 (.text "OR"), .clause 1 (.text "AND") "a = :p" [("p", .int 1)]],
      _, _, _, ?_, rfl, rfl, rfl, rfl, List.mem_cons_of_mem _ List.mem_cons_self, rfl⟩
    intro request hrequest
    simp only [List.mem_cons, List.not_mem_nil, or_false] at hrequest
    rcases hrequest with rfl | rfl | rfl
    · trivial
    · trivial
    · exact Parameters.areNamed_singleton (by decide) _
  obtain ⟨hbuilder, hwhere⟩ := bindings_of_requests requests
  refine ⟨requests, s, t, st, hnamed, hs, ht, hst, hlength, (hbuilder s hs).2.2, ?_⟩
  refine (hwhere t st hnamed ht hst).2.2 _ hclause ("p", .int 1) List.mem_cons_self ?_
  intro u hu v hv
  have hvalue : v ∈ (t.sink.atoms []).flatMap (BoundText.valuesFor "p") :=
    List.mem_flatMap.mpr ⟨u, hu, hv⟩
  rw [hvalues] at hvalue
  exact List.mem_singleton.mp hvalue

/-- Two clauses with different values for one name.  A builder refuses the second, a where clause of
texts accepts both, and the first has lost its value. -/
theorem value_overwritten : ∃ (requests : List Request) (s : Session WhereClause) (st : Statement)
    (f : Fragment), (∀ request ∈ requests, request.IsNamed) ∧
      Request.performAll requests (.start Builder.empty) = .error (.condition (.nameBound "p")) ∧
      Request.performAll requests (.start WhereClause.empty) = .ok s ∧
      s.sink.statement? [] = .ok (some st) ∧ f ∈ Request.contributions requests ∧
      f.parameters.get? "p" = some (.int 1) ∧ st.params.get? "p" = some (.int 2) := by
  refine ⟨[.clause 0 (.text "AND") "a = :p" [("p", .int 1)],
    .clause 0 (.text "AND") "b = :p" [("p", .int 2)]], _, _, ⟨"a = :p", [("p", .int 1)]⟩,
    ?_, rfl, rfl, rfl, List.mem_cons_self, rfl, rfl⟩
  intro request hrequest
  simp only [List.mem_cons, List.not_mem_nil, or_false] at hrequest
  rcases hrequest with rfl | rfl
  · exact Parameters.areNamed_singleton (by decide) _
  · exact Parameters.areNamed_singleton (by decide) _

end Clause

end Criteria
