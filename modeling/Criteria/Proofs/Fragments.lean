import Criteria.Proofs.Composition

/-!
# Fragments of conditions

A condition becomes a fragment when its alias is a text with something in it, the condition is
admitted and, for a document, the template can be filled; an identifier is drawn unless the
condition is a null check.  A fragment always has a text.  A template without braces but those of
its field is filled by putting the alias in front.
-/

namespace Criteria

/-! ## Templates -/

/-- Characters among which there is no brace. -/
def IsPlain (cs : List Char) : Prop := ∀ c ∈ cs, c ≠ '\x7b' ∧ c ≠ '\x7d'

instance (cs : List Char) : Decidable (IsPlain cs) :=
  decidable_of_iff (cs.all fun c ↦ c != '\x7b' && c != '\x7d') (by simp [IsPlain])

theorem isPlain_append {cs others : List Char} :
    IsPlain (cs ++ others) ↔ IsPlain cs ∧ IsPlain others := by
  simp only [IsPlain, List.mem_append]
  constructor
  · intro h
    exact ⟨fun c hc ↦ h c (Or.inl hc), fun c hc ↦ h c (Or.inr hc)⟩
  · rintro ⟨hcs, hothers⟩ c (hc | hc)
    · exact hcs c hc
    · exact hothers c hc

namespace Template

theorem layOut_nil (value : List Char) : layOut value [] = .ok value := by
  simp [layOut, readAlignment, readNumberLayouts, readCount, readGrouping, readPrecision, readCode,
    pad, bind, Except.bind, pure, Except.pure, Text.ofDigits]

/-- A field for the alias puts the alias in front of what follows. -/
theorem fillWithin_field (value rest : List Char) (size : Nat) :
    fillWithin value 2 (size + 1) ("\x7balias\x7d".toList ++ rest) =
      (fillWithin value 2 size rest).map (value ++ ·) := by
  have hliteral : scanLiteral ("\x7balias\x7d".toList ++ rest) =
      .ok ([], some ("alias\x7d".toList ++ rest)) := rfl
  have hfield : scanField ("alias\x7d".toList ++ rest) = .ok (⟨"alias".toList, none, []⟩, rest) :=
    rfl
  have hvalue : resolve value "alias".toList = .ok value := rfl
  simp only [fillWithin, hliteral, hfield, hvalue, convert, layOut_nil, bind, Except.bind, pure,
    Except.pure, List.contains_nil, Bool.false_eq_true, if_false, List.nil_append]
  cases fillWithin value 2 size rest <;> rfl

theorem scanLiteral_plain {cs : List Char} (h : IsPlain cs) : scanLiteral cs = .ok (cs, none) := by
  induction cs with
  | nil => rfl
  | cons c rest ih =>
      obtain ⟨hopen, hclose⟩ := h c List.mem_cons_self
      have hrest := ih fun d hd ↦ h d (List.mem_cons_of_mem c hd)
      rw [scanLiteral] <;> simp_all [bind, Except.bind, pure, Except.pure]

theorem fillWithin_plain (value : List Char) {cs : List Char} (h : IsPlain cs) (size : Nat) :
    fillWithin value 2 (size + 1) cs = .ok cs := by
  simp [fillWithin, scanLiteral_plain h, bind, Except.bind, pure, Except.pure]

theorem bind_eq_ok {α β : Type} {x : Except Fault α} {f : α → Except Fault β} {b : β}
    (h : (x >>= f) = .ok b) : ∃ a, x = .ok a ∧ f a = .ok b := by
  cases x with
  | error fault => simp [bind, Except.bind] at h
  | ok a => exact ⟨a, rfl, h⟩

theorem fill_field (rest fieldAlias : String) : fill ("\x7balias\x7d" ++ rest) fieldAlias =
    ((fillWithin fieldAlias.toList 2 (rest.length + 7) rest.toList).map
      (fieldAlias.toList ++ ·)).map String.ofList := by
  have hlength : ("\x7balias\x7d" ++ rest).length = rest.length + 7 := by
    rw [String.length_append]
    exact Nat.add_comm _ _
  rw [fill, hlength, String.toList_append, fillWithin_field]

theorem fill_field_of_isPlain {rest : String} (h : IsPlain rest.toList) (fieldAlias : String) :
    fill ("\x7balias\x7d" ++ rest) fieldAlias = .ok (fieldAlias ++ rest) := by
  rw [fill_field, fillWithin_plain _ h]
  simp only [Except.map, Except.ok.injEq]
  apply String.toList_inj.mp
  simp [String.toList_append]

/-- A blank at the front stays there, whatever follows. -/
theorem fillWithin_blank {value rest filled : List Char} {size : Nat}
    (h : fillWithin value 2 (size + 1) (' ' :: rest) = .ok filled) : filled ≠ [] := by
  have hliteral : scanLiteral (' ' :: rest) =
      (scanLiteral rest >>= fun p ↦ .ok (' ' :: p.1, p.2)) := by
    rw [scanLiteral]
    · rfl
    all_goals simp
  rw [fillWithin, hliteral] at h
  obtain ⟨_, hfound, h⟩ := bind_eq_ok h
  obtain ⟨⟨literal, field⟩, -, hfound⟩ := bind_eq_ok hfound
  cases hfound
  cases field with
  | none =>
      cases h
      simp
  | some behind =>
      obtain ⟨⟨field, behind⟩, -, h⟩ := bind_eq_ok h
      obtain ⟨shown, -, h⟩ := bind_eq_ok h
      obtain ⟨converted, -, h⟩ := bind_eq_ok h
      -- A layout may hold fields of its own, but it is laid out behind the blank all the same.
      dsimp only at h
      split at h
      all_goals
        obtain ⟨layout, -, h⟩ := bind_eq_ok h
        obtain ⟨laid, -, h⟩ := bind_eq_ok h
        obtain ⟨after, -, h⟩ := bind_eq_ok h
        cases h
        simp

end Template

/-- The characters of a template behind its field. -/
def Criterion.rawTail (sign name : String) : List Char :=
  ' ' :: (sign.toList ++ ' ' :: ':' :: name.toList)

theorem Criterion.rawTemplate_eq (sign name : String) :
    rawTemplate sign name = "\x7balias\x7d" ++ String.ofList (rawTail sign name) := by
  apply String.toList_inj.mp
  simp [rawTemplate, rawTail, String.toList_append]

theorem Criterion.fill_rawTemplate (sign name fieldAlias : String) :
    Template.fill (rawTemplate sign name) fieldAlias =
      ((Template.fillWithin fieldAlias.toList 2 ((rawTail sign name).length + 7)
        (rawTail sign name)).map (fieldAlias.toList ++ ·)).map String.ofList := by
  rw [rawTemplate_eq, Template.fill_field, String.toList_ofList, String.length_ofList]

theorem Criterion.fill_rawTemplate_of_isPlain {sign name : String} (hsign : IsPlain sign.toList)
    (hname : IsPlain name.toList) (fieldAlias : String) :
    Template.fill (rawTemplate sign name) fieldAlias =
      .ok (fieldAlias ++ " " ++ sign ++ " :" ++ name) := by
  have hplain : IsPlain (String.ofList (rawTail sign name)).toList := by
    have hfront : IsPlain [' '] ∧ IsPlain [' ', ':'] := by decide
    rw [String.toList_ofList]
    exact isPlain_append.mpr ⟨hfront.1, isPlain_append.mpr
      ⟨hsign, isPlain_append.mpr ⟨hfront.2, hname⟩⟩⟩
  rw [rawTemplate_eq, Template.fill_field_of_isPlain hplain, Except.ok.injEq]
  apply String.toList_inj.mp
  simp [rawTail, String.toList_append]

theorem Criterion.fill_rawTemplate_ne_empty {sign name fieldAlias query : String}
    (h : Template.fill (rawTemplate sign name) fieldAlias = .ok query) : query ≠ "" := by
  rw [fill_rawTemplate] at h
  cases htail : Template.fillWithin fieldAlias.toList 2 ((rawTail sign name).length + 7)
      (rawTail sign name) with
  | error fault => simp [htail, Except.map] at h
  | ok filled =>
      simp only [htail, Except.map, Except.ok.injEq] at h
      have hfilled : filled ≠ [] := Template.fillWithin_blank htail
      rw [← h, ne_eq, String.ofList_eq_empty_iff]
      simp [hfilled]

/-! ## Fragments -/

theorem Criterion.fragment_document {ctx : BindContext} {relation : DocumentRelation}
    {operand : Value} {json : String} {f : Fragment}
    (h : (document relation operand json).fragment ctx = .ok f) :
    ∃ query, Template.fill (rawTemplate relation.symbol (ctx.parameterName none)) ctx.fieldAlias =
      .ok query ∧ f = ⟨query, [(ctx.parameterName none, .text json)]⟩ := by
  rw [Criterion.fragment] at h
  cases hfill : Template.fill (rawTemplate relation.symbol (ctx.parameterName none))
      ctx.fieldAlias with
  | error fault => simp [hfill] at h
  | ok query =>
      simp only [hfill, Except.ok.injEq] at h
      exact ⟨query, rfl, h.symm⟩

theorem isPlain_symbol (relation : DocumentRelation) : IsPlain relation.symbol.toList := by
  cases relation <;> decide

/-- With a name free of braces a document criterion reads like any other. -/
theorem Criterion.fragment_document_of_isPlain {ctx : BindContext} (h : IsPlain ctx.stem.toList)
    (relation : DocumentRelation) (operand : Value) (json : String) :
    (document relation operand json).fragment ctx =
      .ok (.binary ctx relation.symbol (ctx.parameterName none) (.text json)) := by
  have hfill := fill_rawTemplate_of_isPlain (isPlain_symbol relation) h ctx.fieldAlias
  simp only [Criterion.fragment, BindContext.parameterName]
  rw [hfill]
  rfl

theorem Criterion.query_ne_empty {ctx : BindContext} {c : Criterion} {f : Fragment}
    (h : c.fragment ctx = .ok f) : f.query ≠ "" := by
  cases c with
  | document relation operand json =>
      obtain ⟨query, hfill, rfl⟩ := fragment_document h
      exact fill_rawTemplate_ne_empty hfill
  | _ =>
      simp only [Criterion.fragment, Except.ok.injEq] at h
      subst h
      simp [Fragment.binary, String.append_eq_empty_iff]

theorem Admitted.query_ne_empty {id : String} {fieldAlias : Value} {a : Admitted} {f : Fragment}
    (h : a.fragment id fieldAlias = .ok f) : f.query ≠ "" := by
  cases a with
  | nullCheck negated =>
      cases h
      cases negated <;> simp [Fragment.nullCheck, String.append_eq_empty_iff]
  | criterion o c => exact Criterion.query_ne_empty h

theorem Compiling.ofCheck_eq_ok_iff {α : Type} {check : Except ConditionFault α} {a : α}
    {ids ids' : IdSource} : ofCheck check ids = .ok a ids' ↔ check = .ok a ∧ ids' = ids := by
  cases check with
  | error fault => simp [ofCheck, throw_apply]
  | ok b => simp [ofCheck, pure, EStateM.pure, eq_comm]

theorem Compiling.ofRendering_eq_ok_iff {α : Type} {rendering : Except Fault α} {a : α}
    {ids ids' : IdSource} :
    ofRendering rendering ids = .ok a ids' ↔ rendering = .ok a ∧ ids' = ids := by
  cases rendering with
  | error fault => simp [ofRendering, throw_apply]
  | ok b => simp [ofRendering, pure, EStateM.pure, eq_comm]

/-- The source of identifiers once a condition has been admitted. -/
def Admitted.idsAfter (a : Admitted) (ids : IdSource) : IdSource :=
  if a.drawsId then ids.advance else ids

theorem Compiling.drawFor_eq_ok_iff {a : Admitted} {id : String} {ids ids' : IdSource} :
    drawFor a ids = .ok id ids' ↔ id = ids.current ∧ ids' = a.idsAfter ids := by
  cases a with
  | nullCheck negated =>
      change EStateM.Result.ok ids.current ids = _ ↔ _
      simp [Admitted.idsAfter, Admitted.drawsId, eq_comm]
  | criterion o c =>
      change EStateM.Result.ok ids.current ids.advance = _ ↔ _
      simp [Admitted.idsAfter, Admitted.drawsId, eq_comm]

theorem compileFragment_eq_ok_iff {registry : Registry} {fieldAlias condition : Value}
    {f : Fragment} {ids ids' : IdSource} :
    compileFragment registry fieldAlias condition ids = .ok f ids' ↔
      checkAlias fieldAlias = .ok () ∧ ∃ a, admission registry condition = .ok a ∧
        a.fragment ids.current fieldAlias = .ok f ∧ ids' = a.idsAfter ids := by
  simp only [compileFragment, bind_eq_ok_iff, Compiling.ofCheck_eq_ok_iff,
    Compiling.drawFor_eq_ok_iff, Compiling.ofRendering_eq_ok_iff]
  constructor
  · rintro ⟨_, _, ⟨halias, rfl⟩, a, _, ⟨hadmitted, rfl⟩, _, _, ⟨rfl, rfl⟩, hfragment, rfl⟩
    exact ⟨halias, a, hadmitted, hfragment, rfl⟩
  · rintro ⟨halias, a, hadmitted, hfragment, rfl⟩
    exact ⟨(), ids, ⟨halias, rfl⟩, a, ids, ⟨hadmitted, rfl⟩, _, _, ⟨rfl, rfl⟩, hfragment, rfl⟩

namespace FilterTree

theorem leafFragment_eq_ok_iff {registry : Registry} {base field condition : Value} {f : Fragment}
    {ids ids' : IdSource} : leafFragment registry base field condition ids = .ok f ids' ↔
      ∃ fieldAlias, resolveAlias field base = .ok fieldAlias ∧
        compileFragment registry (.text fieldAlias) condition ids = .ok f ids' := by
  rw [leafFragment]
  cases resolveAlias field base <;> simp

/-- What holds of every fragment that a condition is compiled to holds of all clauses of a tree. -/
theorem Composes.forall_mem_contents {P : Fragment → Prop}
    (hfragment : ∀ {id fieldAlias a f}, Admitted.fragment id fieldAlias a = .ok f → P f)
    {registry : Registry} {base : Value} {join : Join} {entries : List (Value × Value)}
    {ids ids' : IdSource} {items : List (Clause.Item Fragment)}
    (h : Composes registry base join entries ids items ids') :
    ∀ f ∈ Clause.Item.contents items, P f := by
  induction h with
  | nil => simp [Clause.Item.contents]
  | leaf hkey hleaf hrest ih =>
      obtain ⟨fieldAlias, -, hcompile⟩ := leafFragment_eq_ok_iff.mp hleaf
      obtain ⟨-, a, -, hadmitted, -⟩ := compileFragment_eq_ok_iff.mp hcompile
      intro g hg
      simp only [Clause.Item.contents, Clause.Item.contentsOf, List.singleton_append,
        List.mem_cons] at hg
      rcases hg with rfl | hg
      · exact hfragment hadmitted
      · exact ih g hg
  | group hkey htrees hinner hrest ihInner ih =>
      intro g hg
      simp only [Clause.Item.contents, Clause.Item.contentsOf, List.mem_append] at hg
      rcases hg with hg | hg
      · exact ihInner g hg
      · exact ih g hg

theorem Composes.query_ne_empty {registry : Registry} {base : Value} {join : Join}
    {entries : List (Value × Value)} {ids ids' : IdSource} {items : List (Clause.Item Fragment)}
    (h : Composes registry base join entries ids items ids') :
    ∀ f ∈ Clause.Item.contents items, f.query ≠ "" :=
  h.forall_mem_contents Admitted.query_ne_empty

end FilterTree

end Criteria
