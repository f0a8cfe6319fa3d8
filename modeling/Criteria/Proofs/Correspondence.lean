import Mathlib.Data.List.Nodup
import Criteria.Proofs.Language
import Criteria.Proofs.Placeholders
import Criteria.Proofs.Rendering
import Criteria.Proofs.Supplies

/-!
# Placeholders and parameters

The query of a tree spells its parameters: each has one placeholder, the placeholder is that of a
list just when the value is a list, and there are no other placeholders.  So the query can be turned
into a text with bound parameters, in which the lists are spread out and nothing else is.
-/

namespace Criteria

/-- Whether a value is a list. -/
def Value.isList : Value → Bool
  | list _ => true
  | _ => false

/-- The placeholder that a parameter has. -/
def Placeholder.ofParameter (p : String × Value) : Placeholder := ⟨p.1, p.2.isList⟩

theorem Value.isList_of_isScalar {v : Value} (h : v.isScalar = true) : v.isList = false := by
  cases v with
  | list items => cases h
  | _ => rfl

theorem Value.isList_of_isLiteral {v : Value} (h : v.isLiteral = true) : v.isList = false := by
  cases v with
  | list items => cases h
  | _ => rfl

/-! ## Fragments -/

/-- A fragment whose query spells its parameters, no two of which have one name. -/
structure Fragment.IsSpelled (f : Fragment) : Prop where
  spells : Spells f.query.toList (f.parameters.map .ofParameter)
  nodup : (f.parameters.map (·.1)).Nodup

theorem spells_value {name : String} (hname : IsWordOnly name.toList) (hne : name.toList ≠ [])
    {cs : List Char} {ps : List Placeholder} (hstop : Stops cs) (h : Spells cs ps) :
    Spells (' ' :: ':' :: (name.toList ++ cs)) (⟨name, false⟩ :: ps) := by
  have hspells := Spells.single hne hname hstop h
  rwa [String.ofList_toList] at hspells

theorem spells_list {name : String} (hname : IsWordOnly name.toList) (hne : name.toList ≠ [])
    {cs : List Char} {ps : List Placeholder} (hstop : Stops cs) (h : Spells cs ps) :
    Spells (' ' :: '(' :: ':' :: '.' :: '.' :: '.' :: (name.toList ++ ')' :: cs))
      (⟨name, true⟩ :: ps) := by
  have hspells := Spells.list hne hname hstop h
  rwa [String.ofList_toList] at hspells

theorem stops_nil : Stops [] := nofun

theorem colon_notMem_keyword {word : String} (h : ':' ∉ word.toList) (negated : Bool) :
    ':' ∉ (keyword negated word).toList := by
  cases negated with
  | true => simpa [keyword, String.toList_append] using h
  | false => exact h

namespace Fragment

theorem isSpelled_nullCheck {fieldAlias : String} (h : ':' ∉ fieldAlias.toList) (negated : Bool) :
    (nullCheck fieldAlias negated).IsSpelled := by
  constructor
  · apply Spells.of_plain
    cases negated <;> simpa [nullCheck, String.toList_append] using h
  · simp [nullCheck]

theorem isSpelled_binary {ctx : BindContext} (halias : ':' ∉ ctx.fieldAlias.toList) {sign : String}
    (hsign : ':' ∉ sign.toList) {name : String} (hname : IsWordOnly name.toList)
    (hne : name.toList ≠ []) {value : Value} (hvalue : value.isList = false) :
    (binary ctx sign name value).IsSpelled := by
  have hquery : (binary ctx sign name value).query.toList =
      (ctx.fieldAlias ++ " " ++ sign).toList ++ ' ' :: ':' :: (name.toList ++ []) := by
    simp [binary, String.toList_append]
  have hfront : ':' ∉ (ctx.fieldAlias ++ " " ++ sign).toList := by
    simp [String.toList_append, halias, hsign]
  constructor
  · rw [hquery]
    simp only [binary, List.map_cons, List.map_nil, Placeholder.ofParameter, hvalue]
    exact .plain_append hfront (spells_value hname hne stops_nil .nil)
  · simp [binary]

theorem isSpelled_membership {fieldAlias : String} (halias : ':' ∉ fieldAlias.toList)
    (negated : Bool) {name : String} (hname : IsWordOnly name.toList) (hne : name.toList ≠ [])
    (items : List Value) :
    IsSpelled ⟨fieldAlias ++ " " ++ keyword negated "IN" ++ " (:..." ++ name ++ ")",
      [(name, .list items)]⟩ := by
  have hquery : (fieldAlias ++ " " ++ keyword negated "IN" ++ " (:..." ++ name ++ ")").toList =
      (fieldAlias ++ " " ++ keyword negated "IN").toList ++
        ' ' :: '(' :: ':' :: '.' :: '.' :: '.' :: (name.toList ++ ')' :: []) := by
    simp [String.toList_append]
  have hword : ':' ∉ (keyword negated "IN").toList := colon_notMem_keyword (by decide) negated
  have hfront : ':' ∉ (fieldAlias ++ " " ++ keyword negated "IN").toList := by
    simp [String.toList_append, halias, hword]
  constructor
  · rw [hquery]
    exact .plain_append hfront (spells_list hname hne stops_nil .nil)
  · simp

theorem isSpelled_range {fieldAlias : String} (halias : ':' ∉ fieldAlias.toList)
    (negated : Bool) {first last : String} (hfirst : IsWordOnly first.toList)
    (hfirstNe : first.toList ≠ []) (hlast : IsWordOnly last.toList) (hlastNe : last.toList ≠ [])
    (hne : first ≠ last) {low high : Value} (hlow : low.isList = false)
    (hhigh : high.isList = false) :
    IsSpelled ⟨fieldAlias ++ " " ++ keyword negated "BETWEEN" ++ " :" ++ first ++ " AND :" ++ last,
      [(first, low), (last, high)]⟩ := by
  have hquery : (fieldAlias ++ " " ++ keyword negated "BETWEEN" ++ " :" ++ first ++ " AND :" ++
      last).toList = (fieldAlias ++ " " ++ keyword negated "BETWEEN").toList ++
        ' ' :: ':' :: (first.toList ++ (" AND".toList ++ ' ' :: ':' :: (last.toList ++ []))) := by
    simp [String.toList_append]
  have hword : ':' ∉ (keyword negated "BETWEEN").toList :=
    colon_notMem_keyword (by decide) negated
  have hfront : ':' ∉ (fieldAlias ++ " " ++ keyword negated "BETWEEN").toList := by
    simp [String.toList_append, halias, hword]
  have hbehind : Spells (" AND".toList ++ ' ' :: ':' :: (last.toList ++ [])) [⟨last, false⟩] :=
    .plain_append (by decide) (spells_value hlast hlastNe stops_nil .nil)
  have hstop : Stops (" AND".toList ++ ' ' :: ':' :: (last.toList ++ [])) := by
    rintro c ⟨⟩
    decide
  constructor
  · rw [hquery]
    simp only [List.map_cons, List.map_nil, Placeholder.ofParameter, hlow, hhigh]
    exact .plain_append hfront (spells_value hfirst hfirstNe hstop hbehind)
  · simp [hne]

end Fragment

namespace Criterion

/-- The values that a criterion binds as they are. -/
def values : Criterion → List Value
  | order _ value => [value]
  | equality _ value => [value]
  | range _ low high => [low, high]
  | _ => []

theorem satisfying?_eq_some {test : Value → Bool} {operand v : Value}
    (h : satisfying? test operand = some v) : test v = true := by
  rw [satisfying?] at h
  split at h
  · next htest => exact Option.some.inj h ▸ htest
  · cases h

theorem isScalar_of_ends? {operand low high : Value} (h : ends? operand = some (low, high)) :
    low.isScalar = true ∧ high.isScalar = true := by
  rw [ends?] at h
  split at h
  · split at h
    · next hends =>
        obtain ⟨rfl, rfl⟩ := Prod.mk.inj (Option.some.inj h)
        simpa using hends
    · cases h
  · cases h

/-- Of the values that fit an operator only the items of a membership are a list. -/
theorem isList_of_mem_values {o : Operator} {operand : Value} {c : Criterion}
    (h : o.criterion? operand = some c) : ∀ v ∈ c.values, v.isList = false := by
  cases o
  case gte | lte | gt | lt =>
    obtain ⟨value, hvalue, rfl⟩ := Option.map_eq_some_iff.mp h
    have hscalar := Value.isList_of_isScalar (satisfying?_eq_some hvalue)
    simpa [values] using hscalar
  case equalTo | notEqualTo =>
    obtain ⟨value, hvalue, rfl⟩ := Option.map_eq_some_iff.mp h
    have hliteral := Value.isList_of_isLiteral (satisfying?_eq_some hvalue)
    simpa [values] using hliteral
  case between | notBetween =>
    obtain ⟨⟨low, high⟩, hends, rfl⟩ := Option.map_eq_some_iff.mp h
    obtain ⟨hlow, hhigh⟩ := isScalar_of_ends? hends
    simp [values, Value.isList_of_isScalar hlow, Value.isList_of_isScalar hhigh]
  all_goals
    obtain ⟨_, -, rfl⟩ := Option.map_eq_some_iff.mp h
    simp [values]

/-- The fragment of a criterion spells its parameters when the alias is free of colons. -/
theorem isSpelled {ctx : BindContext} (halias : ':' ∉ ctx.fieldAlias.toList)
    (hstem : IsWordOnly ctx.stem.toList) (hne : ctx.stem.toList ≠ []) {c : Criterion}
    (hvalues : ∀ v ∈ c.values, v.isList = false) {f : Fragment} (h : c.fragment ctx = .ok f) :
    f.IsSpelled := by
  cases c with
  | membership negated items =>
      cases h
      exact Fragment.isSpelled_membership halias negated hstem hne items
  | order comparison value =>
      cases h
      have hsign : ':' ∉ comparison.symbol.toList := by
        cases comparison <;> decide
      exact Fragment.isSpelled_binary halias hsign hstem hne (hvalues value (by simp [values]))
  | equality negated value =>
      cases h
      have hsign : ':' ∉ (if negated then "<>" else "=").toList := by
        cases negated <;> decide
      exact Fragment.isSpelled_binary halias hsign hstem hne (hvalues value (by simp [values]))
  | range negated low high =>
      cases h
      have hfirst := BindContext.isWordOnly_parameterName hstem "start" (by decide)
      have hlast := BindContext.isWordOnly_parameterName hstem "end" (by decide)
      exact Fragment.isSpelled_range halias negated hfirst (ctx.parameterName_ne_nil hne _) hlast
        (ctx.parameterName_ne_nil hne _) ctx.start_ne_end (hvalues low (by simp [values]))
        (hvalues high (by simp [values]))
  | pattern placement ignoreCase negated text =>
      cases h
      have hword : ':' ∉ (patternWord ignoreCase negated).toList := by
        cases ignoreCase <;> cases negated <;> decide
      exact Fragment.isSpelled_binary halias hword hstem hne rfl
  | regex ignoreCase negated text =>
      cases h
      have hsign : ':' ∉ (regexSign ignoreCase negated).toList := by
        cases ignoreCase <;> cases negated <;> decide
      exact Fragment.isSpelled_binary halias hsign hstem hne rfl
  | document relation operand json =>
      have hsign : ':' ∉ relation.symbol.toList := by
        cases relation <;> decide
      rw [fragment_document_of_isPlain hstem.isPlain] at h
      cases h
      exact Fragment.isSpelled_binary halias hsign hstem hne rfl
  | hasKey key =>
      cases h
      have hname := BindContext.isWordOnly_parameterName hstem "key" (by decide)
      exact Fragment.isSpelled_binary halias (by decide) hname (ctx.parameterName_ne_nil hne _) rfl

end Criterion

/-! ## Conditions -/

theorem isSpelled_of_compileFragment {registry : Registry} {fieldAlias : String}
    {condition : Value} {f : Fragment} {ids ids' : IdSource} (hids : ids.IsWordOnly)
    (halias : ':' ∉ fieldAlias.toList)
    (h : compileFragment registry (.text fieldAlias) condition ids = .ok f ids') :
    f.IsSpelled ∧ ids'.IsWordOnly := by
  obtain ⟨-, a, ha, hfragment, rfl⟩ := compileFragment_eq_ok_iff.mp h
  refine ⟨?_, hids.idsAfter a⟩
  rcases sentinel_or_criterion_of_admission ha with ⟨s, -, rfl⟩ | ⟨-, operand, o, c, -, hc, rfl⟩
  · cases hfragment
    exact Fragment.isSpelled_nullCheck halias _
  · exact Criterion.isSpelled halias (isWordOnly_stem hids.current o _) (stem_ne_nil _ _ _)
      (Criterion.isList_of_mem_values hc) hfragment

theorem colon_notMem_relationAlias {cs : List Char} (h : ':' ∉ cs) :
    ':' ∉ (relationAlias cs).toList := by
  rw [relationAlias, String.toList_ofList, List.mem_append, List.mem_cons]
  rintro (hrelation | heq | hfield)
  · exact h (List.takeWhile_subset _ hrelation)
  · cases heq
  · exact h (List.drop_subset _ _ (List.takeWhile_subset _ hfield))

theorem colon_notMem_baseAlias {field base : Value} (hfield : ':' ∉ field.toText.toList)
    (hbase : ':' ∉ base.toText.toList) : ':' ∉ (baseAlias field base).toList := by
  simp [baseAlias, String.toList_append, hfield, hbase]

theorem colon_notMem_resolveAlias {field base : Value} {fieldAlias : String}
    (hfield : ':' ∉ field.toText.toList) (hbase : ':' ∉ base.toText.toList)
    (h : resolveAlias field base = .ok fieldAlias) : ':' ∉ fieldAlias.toList := by
  have hitems : ∀ items, itemsAlias field base items = .ok fieldAlias →
      ':' ∉ fieldAlias.toList := by
    intro items hok
    rw [itemsAlias] at hok
    split at hok
    · cases hok
    · split at hok
      · cases hok
        exact colon_notMem_baseAlias hfield hbase
      · cases hok
  cases field with
  | text s =>
      cases h
      split
      · exact colon_notMem_relationAlias hfield
      · exact colon_notMem_baseAlias hfield hbase
  | list items => exact hitems _ h
  | tuple items => exact hitems _ h
  | set items => exact hitems _ h
  | dict entries => exact hitems _ h
  | _ => cases h

namespace FilterTree

open Clause (Item)

/-- Whatever a tree composes to spells its parameters, fragment by fragment. -/
theorem Composes.isSpelled {registry : Registry} {base : Value} {join : Join}
    {entries : List (Value × Value)} {ids ids' : IdSource} {items : List (Item Fragment)}
    (h : Composes registry base join entries ids items ids') (hids : ids.IsWordOnly)
    (hbase : ':' ∉ base.toText.toList)
    (hfields : ∀ leaf ∈ entryLeaves entries, ':' ∉ leaf.1.toText.toList) :
    (∀ f ∈ Item.contents items, f.IsSpelled) ∧ ids'.IsWordOnly := by
  induction h with
  | nil => exact ⟨by simp [Item.contents], hids⟩
  | leaf hkey hleaf hrest ih =>
      rw [entryLeaves_leaf hkey] at hfields
      obtain ⟨fieldAlias, halias, hcompile⟩ := leafFragment_eq_ok_iff.mp hleaf
      have hcolon := colon_notMem_resolveAlias (hfields _ List.mem_cons_self) hbase halias
      obtain ⟨hf, hmiddle⟩ := isSpelled_of_compileFragment hids hcolon hcompile
      obtain ⟨hothers, hids'⟩ := ih hmiddle fun leaf hl ↦ hfields leaf (List.mem_cons_of_mem _ hl)
      refine ⟨?_, hids'⟩
      intro g hg
      rcases List.mem_cons.mp hg with rfl | hg
      · exact hf
      · exact hothers g hg
  | group hkey htrees hinner hrest ihInner ih =>
      rw [entryLeaves_group hkey htrees] at hfields
      obtain ⟨hheld, hmiddle⟩ := ihInner hids fun leaf hl ↦
        hfields leaf (List.mem_append_left _ hl)
      obtain ⟨hothers, hids'⟩ := ih hmiddle fun leaf hl ↦ hfields leaf (List.mem_append_right _ hl)
      refine ⟨?_, hids'⟩
      intro g hg
      rcases List.mem_append.mp hg with hg | hg
      · exact hheld g hg
      · exact hothers g hg

end FilterTree

/-! ## Rendering -/

namespace Clause

/-- The placeholders of several fragments. -/
def placeholdersOf (fragments : List Fragment) : List Placeholder :=
  (parametersOf fragments).map .ofParameter

theorem placeholdersOf_append (fragments others : List Fragment) :
    placeholdersOf (fragments ++ others) = placeholdersOf fragments ++ placeholdersOf others := by
  simp [placeholdersOf, parametersOf]

/-- Parts whose texts spell placeholders, one after the other. -/
inductive PartsSpell : List (Join × List Token) → List Placeholder → Prop where
  | nil : PartsSpell [] []
  | cons {j : Join} {part : List Token} {rest : List (Join × List Token)}
      {own others : List Placeholder} (hpart : Spells (tokensText part).toList own)
      (hrest : PartsSpell rest others) : PartsSpell ((j, part) :: rest) (own ++ others)

theorem stops_joined (j : Join) (cs : List Char) : Stops ((Token.joined j).text.toList ++ cs) := by
  cases j
  all_goals
    rintro c ⟨⟩
    decide

/-- Parts with their joins in front of them. -/
theorem PartsSpell.joined {parts : List (Join × List Token)} {ps : List Placeholder}
    (h : PartsSpell parts ps) :
    Spells (tokensText (parts.flatMap fun p ↦ .joined p.1 :: p.2)).toList ps ∧
      Stops (tokensText (parts.flatMap fun p ↦ .joined p.1 :: p.2)).toList := by
  induction h with
  | nil => exact ⟨.nil, stops_nil⟩
  | @cons j part rest own others hpart hrest ih =>
      obtain ⟨hspells, hstops⟩ := ih
      have hjoin : ':' ∉ (Token.joined j).text.toList := by
        cases j <;> decide
      rw [List.flatMap_cons, List.cons_append, tokensText_cons, tokensText_append,
        String.toList_append, String.toList_append]
      exact ⟨.plain_append hjoin (hpart.append hspells hstops), stops_joined j _⟩

theorem PartsSpell.joinParts {parts : List (Join × List Token)} {ps : List Placeholder}
    (h : PartsSpell parts ps) : Spells (tokensText (joinParts parts)).toList ps := by
  cases h with
  | nil => exact .nil
  | cons hpart hrest =>
      obtain ⟨hspells, hstops⟩ := hrest.joined
      rw [joinParts_cons, tokensText_append, String.toList_append]
      exact hpart.append hspells hstops

/-- The parts of items spell what their fragments spell.  A group that comes to nothing spells
nothing. -/
theorem partsSpell_itemParts {items : List (Item Fragment)}
    (h : ∀ f ∈ Item.contents items, f.IsSpelled) :
    PartsSpell (itemParts items) (placeholdersOf (Item.contents items)) := by
  induction items using Item.sequence_induction with
  | nil => exact .nil
  | clause j f rest ih =>
      have hf : f.IsSpelled := h f (by simp [Item.contents, Item.contentsOf])
      have hrest := ih fun g hg ↦ h g (by simp [Item.contents, hg])
      have htext : tokensText [.query f.query] = f.query := by
        simp [tokensText, String.join, Token.text]
      have hpart : Spells (tokensText [.query f.query]).toList (placeholdersOf [f]) := by
        rw [htext]
        simpa [placeholdersOf, parametersOf] using hf.spells
      rw [Item.contents, placeholdersOf_append]
      exact .cons hpart hrest
  | group j inner rest ihInner ih =>
      have hparts := ihInner fun g hg ↦ h g (by simp [Item.contents, Item.contentsOf, hg])
      have hinner := hparts.joinParts
      have hrest := ih fun g hg ↦ h g (by simp [Item.contents, hg])
      rw [Item.contents, Item.contentsOf, placeholdersOf_append]
      simp only [itemParts, itemPart, bracketed?]
      -- A group without a text is left out, and then no clause in it has a placeholder.
      by_cases hempty : tokensText (Clause.joinParts (itemParts inner)) = ""
      · rw [hempty] at hinner
        simpa [hempty, hinner.eq_nil] using hrest
      · have hclosing : Spells ")".toList [] := .of_plain (by decide)
        have hstops : Stops ")".toList := by
          rintro c ⟨⟩
          decide
        have hpart : Spells (tokensText (.opening ::
            (Clause.joinParts (itemParts inner) ++ [.closing]))).toList
            (placeholdersOf (Item.contents inner)) := by
          rw [tokensText_cons, tokensText_append, String.toList_append, String.toList_append]
          have hgroup := hinner.append hclosing hstops
          rw [List.append_nil] at hgroup
          exact .plain_append (by decide) hgroup
        simpa [hempty] using PartsSpell.cons hpart hrest

theorem spells_render {items : List (Item Fragment)}
    (h : ∀ f ∈ Item.contents items, f.IsSpelled) :
    Spells (render items).toList (placeholdersOf (Item.contents items)) :=
  (partsSpell_itemParts h).joinParts

/-- Fragments that can be bound one after the other have different names throughout. -/
theorem nodup_of_bindable {bound : Parameters} {fragments : List Fragment}
    (h : Bindable bound fragments) (hspelled : ∀ f ∈ fragments, f.IsSpelled) :
    ((parametersOf fragments).map (·.1)).Nodup :=
  h.nodup_names fun f hf ↦ (hspelled f hf).nodup

end Clause

/-! ## Binding -/

theorem Spells.name_ne_empty {cs : List Char} {ps : List Placeholder} (h : Spells cs ps) :
    ∀ p ∈ ps, p.name ≠ "" := by
  induction h with
  | nil => simp
  | char hc h ih => exact ih
  | single hne hname hstop h ih => simpa [hne, String.ofList_eq_empty_iff] using ih
  | list hne hname hstop h ih => simpa [hne, String.ofList_eq_empty_iff] using ih

namespace Sql.BoundText

/-- A query that spells its parameters becomes a text in which every placeholder has the value of
its parameter, and is spread out just when this is a list. -/
theorem ofFragment_of_spells {query : String} {parameters : Parameters}
    (h : Spells query.toList (parameters.map .ofParameter))
    (hnodup : (parameters.map (·.1)).Nodup) :
    ∃ t, ofFragment query parameters = .ok t ∧
      t.binds = parameters.map fun p ↦ (p.1, ⟨⟨p.2, p.2.isList⟩, true⟩) := by
  obtain ⟨hlists, hspells, -⟩ := signsFrom_of_spells h
  have hstatement : placeholderNames (statementOf query) = parameters.map (·.1) := by
    rw [placeholderNames, statementOf, String.toList_ofList]
    refine (namesFrom_of_spells hspells ?_ none).trans ?_
    · intro p hp
      obtain ⟨q, -, rfl⟩ := List.mem_map.mp hp
      rfl
    · simp [Placeholder.ofParameter, Function.comp_def]
  have hnames : listNames query = (parameters.filter (·.2.isList)).map (·.1) := by
    rw [listNames, signs, hlists, List.filter_map, List.map_map]
    rfl
  have hlist : ∀ p ∈ parameters, (listNames query).contains p.1 = p.2.isList := by
    intro p hp
    rw [hnames, Bool.eq_iff_iff, List.contains_iff_mem, List.mem_map]
    constructor
    · rintro ⟨q, hq, heq⟩
      obtain ⟨hq, hlist⟩ := List.mem_filter.mp hq
      obtain rfl : q = p := List.inj_on_of_nodup_map hnodup hq hp heq
      exact hlist
    · intro hlist
      exact ⟨p, List.mem_filter.mpr ⟨hp, hlist⟩, rfl⟩
  have hsupply : ∀ p ∈ parameters, supplyIn (listNames query) p =
      (p.1, ⟨⟨p.2, p.2.isList⟩, true⟩) := by
    intro p hp
    have hname : p.1 ≠ "" := h.name_ne_empty (.ofParameter p) (List.mem_map_of_mem hp)
    rw [supplyIn, supplyOf, hlist p hp, if_neg (by simpa using hname)]
  have hsupplies : suppliesIn query parameters =
      parameters.map fun p ↦ (p.1, ⟨⟨p.2, p.2.isList⟩, true⟩) :=
    List.map_congr_left hsupply
  refine ⟨_, ofFragment_eq_ok_iff.mpr ⟨?_, ?_, rfl⟩, ?_⟩
  · intro p hp hcontains
    rw [hlist p hp] at hcontains
    cases hvalue : p.2 with
    | list items => rfl
    | _ => simp [hvalue, Value.isList] at hcontains
  · rw [hsupplies, hstatement]
    intro s hs
    obtain ⟨p, hp, rfl⟩ := List.mem_map.mp hs
    exact List.mem_map_of_mem hp
  · have hnodup' : ((suppliesIn query parameters).map (·.1)).Nodup := by
      rw [hsupplies, List.map_map]
      exact hnodup
    rw [bare, hstatement, List.map_map, List.map_map]
    apply List.map_congr_left
    intro p hp
    refine settle_of_mem hnodup' ?_ rfl
    rw [hsupplies]
    exact List.mem_map_of_mem hp

end Sql.BoundText

namespace FilterTree

open Clause (Builder Item parametersOf)

/-- The query of a tree, composed with identifiers that are made of word characters, for a base and
fields without colons.  Its placeholders are its parameters, in order and each once, and a
placeholder is that of a list just when the value is a list.  So the query becomes a text with bound
parameters, and just these are spread out in it. -/
theorem placeholders_match_parameters {registry : Registry} {base join tree : Value}
    {ids ids' : IdSource} {b : Builder} (hids : ids.IsWordOnly) (hbase : ':' ∉ base.toText.toList)
    (hfields : ∀ leaf ∈ leaves tree, ':' ∉ leaf.1.toText.toList)
    (h : FilterTree.apply registry base [] join tree ⟨Builder.empty, ids⟩ = .ok () ⟨b, ids'⟩) :
    placeholders (b.build []).query = (b.build []).parameters.map .ofParameter ∧
    ((b.build []).parameters.map (·.1)).Nodup ∧
    ∃ t, Sql.BoundText.ofFragment (b.build []).query (b.build []).parameters = .ok t ∧
      t.binds = (b.build []).parameters.map fun p ↦ (p.1, ⟨⟨p.2, p.2.isList⟩, true⟩) := by
  obtain ⟨j, entries, items, -, rfl, hitems, hbind, hreplay⟩ := apply_eq_ok_iff.mp h
  obtain ⟨-, rfl⟩ := Clause.Builder.replay_eq_ok_iff.mp hreplay
  rw [leaves] at hfields
  obtain ⟨hspelled, -⟩ := hitems.isSpelled hids hbase hfields
  have hbuild : (Builder.empty.extend [] items).build [] =
      ⟨Clause.render items, parametersOf (Item.contents items)⟩ := rfl
  have hspells : Spells (Clause.render items).toList
      ((parametersOf (Item.contents items)).map .ofParameter) := Clause.spells_render hspelled
  have hnodup := Clause.nodup_of_bindable hbind hspelled
  rw [hbuild]
  exact ⟨hspells.filterMap_tails, hnodup, Sql.BoundText.ofFragment_of_spells hspells hnodup⟩

/-- A list and a range in a group, with a numbered sequence and with one identifier over and
over. -/
theorem placeholders_match_parameters_list :
    ∃ tree : Value, (∀ leaf ∈ leaves tree, ':' ∉ leaf.1.toText.toList) ∧
      ∀ ids ∈ [IdSource.standard, .constant "id"], ids.IsWordOnly ∧ ∃ b ids',
        FilterTree.apply Registry.full (.text "e") [] (.text "AND") tree ⟨Builder.empty, ids⟩ =
          .ok () ⟨b, ids'⟩ ∧
        (b.build []).parameters.map (·.2.isList) = [true, false, false] ∧
        placeholders (b.build []).query = (b.build []).parameters.map .ofParameter ∧
        ∃ t, Sql.BoundText.ofFragment (b.build []).query (b.build []).parameters = .ok t ∧
          t.binds = (b.build []).parameters.map fun p ↦ (p.1, ⟨⟨p.2, p.2.isList⟩, true⟩) := by
  obtain ⟨tree, hfields, hruns⟩ : ∃ tree : Value,
      (∀ leaf ∈ leaves tree, ':' ∉ leaf.1.toText.toList) ∧
      ∀ ids ∈ [IdSource.standard, .constant "id"], ids.IsWordOnly ∧ ∃ b ids',
        FilterTree.apply Registry.full (.text "e") [] (.text "AND") tree ⟨Builder.empty, ids⟩ =
          .ok () ⟨b, ids'⟩ ∧
        (b.build []).parameters.map (·.2.isList) = [true, false, false] := by
    refine ⟨.dict [(.text "$or", .list [.dict [(.text "id", .list [.int 1, .int 2]),
      (.text "age", .dict [(.text "$between", .list [.int 18, .int 30])])]])], by decide, ?_⟩
    intro ids hids
    simp only [List.mem_cons, List.not_mem_nil, or_false] at hids
    rcases hids with rfl | rfl
    · exact ⟨isWordOnly_sequence (by decide) (by decide), _, _, rfl, rfl⟩
    · exact ⟨isWordOnly_constant (by decide), _, _, rfl, rfl⟩
  refine ⟨tree, hfields, fun ids hids ↦ ?_⟩
  obtain ⟨hwords, b, ids', hrun, hlists⟩ := hruns ids hids
  obtain ⟨hplaceholders, -, hbound⟩ :=
    placeholders_match_parameters hwords (by decide) hfields hrun
  exact ⟨hwords, b, ids', hrun, hlists, hplaceholders, hbound⟩

end FilterTree

end Criteria
