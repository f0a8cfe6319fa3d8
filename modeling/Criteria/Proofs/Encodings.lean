import Mathlib.Data.List.Basic
import Mathlib.Logic.Function.Iterate
import Criteria.Proofs.Wording
import Criteria.Proofs.WordNames

/-!
# The two encodings of a condition

A fragment is read back word by word: what stands behind the alias is a test, and its placeholders
stand for the values that are bound to them.  The abstract operator of a condition is what its
fragment reads as, or carries the text of the fragment as a template.  Both encodings have the same
faults, and draw the same identifiers.
-/

namespace Criteria

/-! ## Reading a fragment -/

/-- The words of a text behind another text and a blank. -/
def wordsBehind? (front text : String) : Option (List String) :=
  (text.toList.dropPrefix? (front.toList ++ [' '])).map fun rest ↦
    (rest.splitOn ' ').map String.ofList

namespace Parameters

/-- The value that a placeholder `:name` stands for. -/
def valueAt? (ps : Parameters) (placeholder : String) : Option Value :=
  match placeholder.toList with
  | ':' :: name => ps.get? (String.ofList name)
  | _ => none

/-- The items of the list that a placeholder `(:...name)` stands for. -/
def itemsAt? (ps : Parameters) (placeholder : String) : Option (List Value) :=
  match placeholder.toList with
  | '(' :: ':' :: '.' :: '.' :: '.' :: rest =>
    if rest.getLast? = some ')' then
      match ps.get? (String.ofList rest.dropLast) with
      | some (.list items) => some items
      | _ => none
    else none
  | _ => none

end Parameters

namespace FindOperator

/-- The operator that a sign makes of a value. -/
def ofSign? : String → Option (Value → FindOperator)
  | "=" => some equal
  | "<>" => some fun v ↦ not (equal v)
  | "<" => some lessThan
  | "<=" => some lessThanOrEqual
  | ">" => some moreThan
  | ">=" => some moreThanOrEqual
  | "LIKE" => some like
  | "ILIKE" => some ilike
  | _ => none

/-- The operator that words say which are not negated. -/
def ofTest? (ps : Parameters) : List String → Option FindOperator
  | ["IN", items] => (ps.itemsAt? items).map isIn
  | ["BETWEEN", low, "AND", high] => do return between (← ps.valueAt? low) (← ps.valueAt? high)
  | [sign, value] => do return (← ofSign? sign) (← ps.valueAt? value)
  | _ => none

/-- The operator that words say. -/
def ofWords? (ps : Parameters) : List String → Option FindOperator
  | ["IS", "NULL"] => some isNull
  | ["IS", "NOT", "NULL"] => some (not isNull)
  | "NOT" :: words => (ofTest? ps words).map not
  | words => ofTest? ps words

end FindOperator

/-- The operator that a fragment says of an alias. -/
def Fragment.read? (fieldAlias : String) (f : Fragment) : Option FindOperator :=
  (wordsBehind? fieldAlias f.query).bind (FindOperator.ofWords? f.parameters)

/-- An operator says of an alias what a fragment does: a raw one is rendered as its text, with the
same parameters, and any other one is what the fragment reads as. -/
def FindOperator.Encodes (fieldAlias : String) (f : Fragment) (op : FindOperator) : Prop :=
  match op with
  | raw _ _ parameters _ => op.render fieldAlias = .ok f.query ∧ parameters = f.parameters
  | op => f.read? fieldAlias = some op

/-! ## Fragments by their words -/

theorem wordsBehind?_intercalate (front : String) {words : List String} (hwords : words ≠ [])
    (hblank : ∀ word ∈ words, ' ' ∉ word.toList) :
    wordsBehind? front (front ++ " " ++ " ".intercalate words) = some words := by
  have htext : (front ++ " " ++ " ".intercalate words).toList =
      (front.toList ++ [' ']) ++ [' '].intercalate (words.map String.toList) := by
    simp [String.toList_append, String.toList_intercalate]
  have hsplit : ([' '].intercalate (words.map String.toList)).splitOn ' ' =
      words.map String.toList :=
    List.splitOn_intercalate ' ' (by simpa using hblank) (by simpa using hwords)
  rw [wordsBehind?, htext, List.dropPrefix?_append_of_beq _ (by simp), Option.map_some, hsplit]
  simp [Function.comp_def]

/-- Words in a row, of which none is broken by a blank. -/
structure Fragment.IsWorded (fieldAlias : String) (words : List String) (f : Fragment) : Prop where
  query_eq : f.query = fieldAlias ++ " " ++ " ".intercalate words
  ne_nil : words ≠ []
  unbroken : ∀ word ∈ words, ' ' ∉ word.toList

theorem Fragment.IsWorded.read? {fieldAlias : String} {words : List String} {f : Fragment}
    (h : f.IsWorded fieldAlias words) :
    f.read? fieldAlias = FindOperator.ofWords? f.parameters words := by
  rw [Fragment.read?, h.query_eq, wordsBehind?_intercalate _ h.ne_nil h.unbroken, Option.bind_some]

/-- The word in front of a test that is negated. -/
def negationWords (negated : Bool) : List String := if negated then ["NOT"] else []

theorem FindOperator.ofWords?_keyword {ps : Parameters} {word : String} {rest : List String}
    {op : FindOperator} (hnot : word ≠ "NOT") (his : word ≠ "IS")
    (h : ofTest? ps (word :: rest) = some op) (negated : Bool) :
    ofWords? ps (negationWords negated ++ word :: rest) = some (negatedIf negated op) := by
  cases negated with
  | true => simpa [negationWords, ofWords?, negatedIf] using h
  | false => simpa [negationWords, ofWords?, negatedIf, hnot, his] using h

theorem Fragment.isWorded_keyword {fieldAlias word first : String} {rest : List String}
    {f : Fragment} (negated : Bool)
    (hquery : f.query =
      fieldAlias ++ " " ++ keyword negated word ++ " " ++ " ".intercalate (first :: rest))
    (hword : ' ' ∉ word.toList) (hrest : ∀ w ∈ first :: rest, ' ' ∉ w.toList) :
    f.IsWorded fieldAlias (negationWords negated ++ word :: first :: rest) := by
  have hall : ∀ w ∈ word :: first :: rest, ' ' ∉ w.toList := by
    intro w hw
    rcases List.mem_cons.mp hw with rfl | hw
    · exact hword
    · exact hrest w hw
  cases negated with
  | true =>
      refine ⟨?_, by simp, ?_⟩
      · rw [hquery]
        apply String.toList_inj.mp
        simp [keyword, negationWords, String.toList_intercalate, List.intercalate]
      · intro w hw
        rcases List.mem_cons.mp hw with rfl | hw
        · decide
        · exact hall w hw
  | false =>
      refine ⟨?_, by simp, hall⟩
      rw [hquery]
      apply String.toList_inj.mp
      simp [keyword, negationWords, String.toList_intercalate, List.intercalate]

/-! ## Placeholders -/

namespace Parameters

theorem get?_cons_self (name : String) (value : Value) (ps : Parameters) :
    get? ((name, value) :: ps) name = some value := by
  simp [get?]

theorem get?_cons_of_ne {name other : String} (h : other ≠ name) (value : Value)
    (ps : Parameters) : get? ((other, value) :: ps) name = get? ps name := by
  simp [get?, h]

theorem valueAt?_placeholder (ps : Parameters) (name : String) :
    ps.valueAt? (":" ++ name) = ps.get? name := by
  simp [valueAt?, String.toList_append]

theorem itemsAt?_placeholder {ps : Parameters} {name : String} {items : List Value}
    (h : ps.get? name = some (.list items)) :
    ps.itemsAt? ("(:..." ++ name ++ ")") = some items := by
  simp [itemsAt?, String.toList_append, h]

end Parameters

theorem blank_notMem_placeholder {name : String} (h : IsWordOnly name.toList) :
    ' ' ∉ (":" ++ name).toList := by
  have hname : ' ' ∉ name.toList := h.notMem (by decide)
  simpa [String.toList_append] using hname

/-! ## Criteria -/

theorem FindOperator.encodes_of_read? {fieldAlias : String} {f : Fragment} {op : FindOperator}
    (hkind : op.kind ≠ .raw) (h : f.read? fieldAlias = some op) : op.Encodes fieldAlias f := by
  cases op with
  | raw value template parameters origin => exact absurd rfl hkind
  | _ => exact h

theorem FindOperator.kind_negatedIf {op : FindOperator} (h : op.kind ≠ .raw) (negated : Bool) :
    (negatedIf negated op).kind ≠ .raw := by
  cases negated with
  | true => simp [negatedIf, kind]
  | false => exact h

namespace Criterion

/-- A keyword or a sign with one value behind it. -/
theorem encodes_binary {ctx : BindContext} {name : String} (hname : IsWordOnly name.toList)
    (word : String) {op : Value → FindOperator} (hop : FindOperator.ofSign? word = some op)
    (hword : ' ' ∉ word.toList) (value : Value) (hkind : (op value).kind ≠ .raw)
    (negated : Bool) :
    (FindOperator.negatedIf negated (op value)).Encodes ctx.fieldAlias
      (.binary ctx (keyword negated word) name value) := by
  apply FindOperator.encodes_of_read? (FindOperator.kind_negatedIf hkind negated)
  have hworded : (Fragment.binary ctx (keyword negated word) name value).IsWorded ctx.fieldAlias
      (negationWords negated ++ [word, ":" ++ name]) := by
    apply Fragment.isWorded_keyword negated _ hword
    · simpa using blank_notMem_placeholder hname
    · apply String.toList_inj.mp
      simp [Fragment.binary]
  have hvalue : Parameters.valueAt? [(name, value)] (":" ++ name) = some value := by
    rw [Parameters.valueAt?_placeholder, Parameters.get?_cons_self]
  have hsign : word ≠ "NOT" ∧ word ≠ "IS" ∧ word ≠ "IN" := by
    refine ⟨?_, ?_, ?_⟩ <;>
      · rintro rfl
        simp [FindOperator.ofSign?] at hop
  obtain ⟨hnot, his, hin⟩ := hsign
  rw [hworded.read?]
  apply FindOperator.ofWords?_keyword hnot his
  simp [FindOperator.ofTest?, hop, Fragment.binary, hvalue]

theorem encodes_membership {ctx : BindContext} {name : String} (hname : IsWordOnly name.toList)
    (negated : Bool) (items : List Value) :
    (FindOperator.negatedIf negated (.isIn items)).Encodes ctx.fieldAlias
      ⟨ctx.fieldAlias ++ " " ++ keyword negated "IN" ++ " (:..." ++ name ++ ")",
        [(name, .list items)]⟩ := by
  have hkind : (FindOperator.isIn items).kind ≠ .raw := by simp [FindOperator.kind]
  apply FindOperator.encodes_of_read? (FindOperator.kind_negatedIf hkind negated)
  have hblank : ' ' ∉ name.toList := hname.notMem (by decide)
  have hworded : Fragment.IsWorded ctx.fieldAlias
      (negationWords negated ++ ["IN", "(:..." ++ name ++ ")"])
      ⟨ctx.fieldAlias ++ " " ++ keyword negated "IN" ++ " (:..." ++ name ++ ")",
        [(name, .list items)]⟩ := by
    apply Fragment.isWorded_keyword negated _ (by decide)
    · simpa [String.toList_append] using hblank
    · apply String.toList_inj.mp
      simp
  have hitems : Parameters.itemsAt? [(name, .list items)] ("(:..." ++ name ++ ")") = some items :=
    Parameters.itemsAt?_placeholder (Parameters.get?_cons_self ..)
  rw [hworded.read?]
  apply FindOperator.ofWords?_keyword (by decide) (by decide)
  rw [FindOperator.ofTest?, hitems, Option.map_some]

theorem encodes_range {ctx : BindContext} {first last : String} (hfirst : IsWordOnly first.toList)
    (hlast : IsWordOnly last.toList) (hne : first ≠ last) (negated : Bool) (low high : Value) :
    (FindOperator.negatedIf negated (.between low high)).Encodes ctx.fieldAlias
      ⟨ctx.fieldAlias ++ " " ++ keyword negated "BETWEEN" ++ " :" ++ first ++ " AND :" ++ last,
        [(first, low), (last, high)]⟩ := by
  have hkind : (FindOperator.between low high).kind ≠ .raw := by simp [FindOperator.kind]
  apply FindOperator.encodes_of_read? (FindOperator.kind_negatedIf hkind negated)
  have hworded : Fragment.IsWorded ctx.fieldAlias
      (negationWords negated ++ ["BETWEEN", ":" ++ first, "AND", ":" ++ last])
      ⟨ctx.fieldAlias ++ " " ++ keyword negated "BETWEEN" ++ " :" ++ first ++ " AND :" ++ last,
        [(first, low), (last, high)]⟩ := by
    apply Fragment.isWorded_keyword negated _ (by decide)
    · intro w hw
      simp only [List.mem_cons, List.not_mem_nil, or_false] at hw
      rcases hw with rfl | rfl | rfl
      · exact blank_notMem_placeholder hfirst
      · decide
      · exact blank_notMem_placeholder hlast
    · apply String.toList_inj.mp
      simp
  have hlow : Parameters.valueAt? [(first, low), (last, high)] (":" ++ first) = some low := by
    rw [Parameters.valueAt?_placeholder, Parameters.get?_cons_self]
  have hhigh : Parameters.valueAt? [(first, low), (last, high)] (":" ++ last) = some high := by
    rw [Parameters.valueAt?_placeholder, Parameters.get?_cons_of_ne hne,
      Parameters.get?_cons_self]
  rw [hworded.read?]
  apply FindOperator.ofWords?_keyword (by decide) (by decide)
  simp [FindOperator.ofTest?, hlow, hhigh]

/-- A raw operator whose template has the sign and the placeholder of the fragment. -/
theorem encodes_raw {ctx : BindContext} {sign name : String} (hsign : IsPlain sign.toList)
    (hname : IsWordOnly name.toList) (operand value : Value) (origin : Option Operator) :
    (FindOperator.raw operand (rawTemplate sign name) [(name, value)] origin).Encodes
      ctx.fieldAlias (.binary ctx sign name value) := by
  constructor
  · rw [FindOperator.render, fill_rawTemplate_of_isPlain hsign hname.isPlain]
    rfl
  · rfl

/-- The fragment and the abstract operator of a criterion say the same. -/
theorem exists_encodes {ctx : BindContext} (h : IsWordOnly ctx.stem.toList) (o : Operator)
    (c : Criterion) : ∃ f, c.fragment ctx = .ok f ∧
      (FindOperator.ofCriterion ctx o c).Encodes ctx.fieldAlias f := by
  cases c with
  | membership negated items => exact ⟨_, rfl, encodes_membership h negated items⟩
  | order comparison value =>
      refine ⟨_, rfl, ?_⟩
      cases comparison with
      | lt => exact encodes_binary h "<" rfl (by decide) value nofun false
      | le => exact encodes_binary h "<=" rfl (by decide) value nofun false
      | gt => exact encodes_binary h ">" rfl (by decide) value nofun false
      | ge => exact encodes_binary h ">=" rfl (by decide) value nofun false
  | equality negated value =>
      refine ⟨_, rfl, ?_⟩
      cases negated with
      | true => exact encodes_binary h "<>" rfl (by decide) value nofun false
      | false => exact encodes_binary h "=" rfl (by decide) value nofun false
  | range negated low high =>
      have hfirst := BindContext.isWordOnly_parameterName h "start" (by decide)
      have hlast := BindContext.isWordOnly_parameterName h "end" (by decide)
      exact ⟨_, rfl, encodes_range hfirst hlast ctx.start_ne_end negated low high⟩
  | pattern placement ignoreCase negated text =>
      refine ⟨_, rfl, ?_⟩
      cases ignoreCase with
      | true => exact encodes_binary h "ILIKE" rfl (by decide) _ nofun negated
      | false => exact encodes_binary h "LIKE" rfl (by decide) _ nofun negated
  | regex ignoreCase negated text =>
      have hsign : IsPlain (regexSign ignoreCase negated).toList := by
        cases ignoreCase <;> cases negated <;> decide
      exact ⟨_, rfl, encodes_raw hsign h ..⟩
  | document relation operand json =>
      exact ⟨_, fragment_document_of_isPlain h.isPlain relation operand json,
        encodes_raw (isPlain_symbol relation) h ..⟩
  | hasKey key =>
      have hname := BindContext.isWordOnly_parameterName h "key" (by decide)
      exact ⟨_, rfl, encodes_raw (by decide) hname ..⟩

end Criterion

/-! ## Compiling -/

namespace Admitted

theorem exists_encodes {id fieldAlias : String} (h : IsWordOnly id.toList) (a : Admitted) :
    ∃ f, a.fragment id (.text fieldAlias) = .ok f ∧
      (a.findOperator id (.text fieldAlias)).Encodes fieldAlias f := by
  cases a with
  | criterion o c => exact c.exists_encodes (isWordOnly_stem h o _) o
  | nullCheck negated =>
      refine ⟨_, rfl, ?_⟩
      have hkind : FindOperator.isNull.kind ≠ .raw := nofun
      apply FindOperator.encodes_of_read? (FindOperator.kind_negatedIf hkind negated)
      cases negated with
      | true =>
          have hworded : (Fragment.nullCheck fieldAlias true).IsWorded fieldAlias
              ["IS", "NOT", "NULL"] := by
            refine ⟨?_, by simp, by decide⟩
            apply String.toList_inj.mp
            simp [Fragment.nullCheck]
          exact hworded.read?
      | false =>
          have hworded : (Fragment.nullCheck fieldAlias false).IsWorded fieldAlias
              ["IS", "NULL"] := by
            refine ⟨?_, by simp, by decide⟩
            apply String.toList_inj.mp
            simp [Fragment.nullCheck]
          exact hworded.read?

theorem idsAfter_eq_iterate (a : Admitted) (ids : IdSource) :
    a.idsAfter ids = IdSource.advance^[if a.drawsId then 1 else 0] ids := by
  rw [idsAfter]
  cases a.drawsId <;> rfl

end Admitted

/-- A condition on an alias that is not blank either has a fault, and then it has this fault for
both targets and draws no identifier, or compiles for both targets.  Then both draw as many
identifiers, and what they compile to says the same. -/
theorem encodings_agree {fieldAlias : String} (halias : Text.isBlankText fieldAlias = false)
    (registry : Registry) (condition : Value) :
    (∃ fault : ConditionFault, ∀ ids,
      compile registry (.text "qb") (.text fieldAlias) condition ids =
        .error (.raised fault) ids ∧
      compile registry (.text "find") (.text fieldAlias) condition ids =
        .error (.raised fault) ids) ∨
    (∃ drawn : Nat, ∀ ids : IdSource, IsWordOnly ids.current.toList → ∃ f op,
      compile registry (.text "qb") (.text fieldAlias) condition ids =
        .ok (.fragment f) (IdSource.advance^[drawn] ids) ∧
      compile registry (.text "find") (.text fieldAlias) condition ids =
        .ok (.find op) (IdSource.advance^[drawn] ids) ∧
      op.Encodes fieldAlias f) := by
  have hcheck : checkAlias (.text fieldAlias) = .ok () := by
    simp [checkAlias, halias]
  cases hadmitted : admission registry condition with
  | error fault =>
      refine Or.inl ⟨fault, fun ids ↦ ⟨?_, ?_⟩⟩
      · rw [compile, compileFragment, hcheck, hadmitted]
        rfl
      · rw [compile, compileFind, hadmitted]
        rfl
  | ok a =>
      refine Or.inr ⟨if a.drawsId then 1 else 0, fun ids hids ↦ ?_⟩
      obtain ⟨f, hf, hencodes⟩ := a.exists_encodes hids
      rw [← a.idsAfter_eq_iterate]
      refine ⟨f, a.findOperator ids.current (.text fieldAlias), ?_, ?_, hencodes⟩
      · exact compile_eq_ok_iff.mpr (Or.inl ⟨rfl, f,
          compileFragment_eq_ok_iff.mpr ⟨hcheck, a, hadmitted, hf, rfl⟩, rfl⟩)
      · exact compile_eq_ok_iff.mpr (Or.inr ⟨rfl, _,
          compileFind_eq_ok_iff.mpr ⟨a, hadmitted, rfl, rfl⟩, rfl⟩)

/-- An alias with a blank in it, and a range that is left out.  The fragment reads as the negation
of the range. -/
theorem encodings_agree_notBetween :
    ∃ (condition : Value) (f : Fragment), Text.isBlankText "first name" = false ∧
      IsWordOnly IdSource.standard.current.toList ∧
      compile Registry.full (.text "qb") (.text "first name") condition .standard =
        .ok (.fragment f) (.sequence "p" 2) ∧
      f.query = "first name NOT BETWEEN :p1_notBetween_first_name_start " ++
        "AND :p1_notBetween_first_name_end" ∧
      f.read? "first name" = some (.not (.between (.int 3) (.int 9))) := by
  have hblank : Text.isBlankText "first name" = false := by decide
  have hwords : IsWordOnly IdSource.standard.current.toList := by decide
  rcases encodings_agree hblank Registry.full
      (.dict [(.text "$notBetween", .list [.int 3, .int 9])]) with ⟨fault, h⟩ | ⟨drawn, h⟩
  · cases (h .standard).1
  · obtain ⟨f, op, hf, hop, hencodes⟩ := h .standard hwords
    obtain ⟨g, hg, hquery⟩ : ∃ g : Fragment,
        compile Registry.full (.text "qb") (.text "first name")
          (.dict [(.text "$notBetween", .list [.int 3, .int 9])]) .standard =
          .ok (.fragment g) (.sequence "p" 2) ∧
        g.query = "first name NOT BETWEEN :p1_notBetween_first_name_start " ++
          "AND :p1_notBetween_first_name_end" :=
      ⟨_, rfl, by decide⟩
    obtain ⟨rfl, -⟩ : f = g ∧ _ := by simpa using hf.symm.trans hg
    have hrange : compile Registry.full (.text "find") (.text "first name")
        (.dict [(.text "$notBetween", .list [.int 3, .int 9])]) .standard =
        .ok (.find (.not (.between (.int 3) (.int 9)))) (.sequence "p" 2) := rfl
    obtain ⟨rfl, -⟩ : op = .not (.between (.int 3) (.int 9)) ∧ _ := by
      simpa using hop.symm.trans hrange
    exact ⟨_, f, hblank, hwords, hg, hquery, hencodes⟩

end Criteria
