import Mathlib.Data.List.Induction
import Criteria.Proofs.Meaning
import Criteria.Proofs.Supplies

/-!
# The parameters of a statement

A statement is written from the texts of a where clause, from the left.  When every placeholder goes
by its own name, the parameters of the statement are the binds of the texts, in the order in which
the texts stand in it, and of several values for one name the last one counts.
-/

namespace Criteria

/-! ## Values put under names -/

namespace Parameters

/-- The values that pairs give to a name, in order. -/
def valuesOf (name : String) (pairs : List (String × Value)) : List Value :=
  pairs.filterMap fun p ↦ if p.1 = name then some p.2 else none

theorem get?_put (name other : String) (value : Value) (ps : Parameters) :
    (put name value ps).get? other = if name = other then some value else ps.get? other := by
  induction ps with
  | nil => by_cases h : name = other <;> simp [put, get?, h]
  | cons p rest ih =>
      obtain ⟨first, held⟩ := p
      rw [put]
      split
      · next hfirst =>
          subst hfirst
          by_cases h : first = other
          · simp [get?, h]
          · simp [get?, h]
      · next hfirst =>
          by_cases h : first = other
          · subst h
            simp [get?, Ne.symm hfirst]
          · have hrest := ih
            simp only [get?] at hrest ⊢
            simpa [h] using hrest

/-- Of several values put under one name the last is found. -/
theorem get?_ofPairs (name : String) (pairs : List (String × Value)) :
    (ofPairs pairs).get? name = (valuesOf name pairs).getLast? := by
  induction pairs using List.reverseRecOn with
  | nil => rfl
  | append_singleton front p ih =>
      rw [ofPairs, List.foldl_append]
      change (put p.1 p.2 (ofPairs front)).get? name = _
      rw [get?_put, ih, valuesOf, valuesOf, List.filterMap_append]
      by_cases h : p.1 = name <;> simp [h]

end Parameters

namespace Sql

/-! ## Pieces -/

/-- Pieces with some named parameters, from the left, and no others. -/
inductive PiecesBind : List Piece → List (String × Bind) → Prop where
  | nil : PiecesBind [] []
  | text {s : String} {rest : List Piece} {entries : List (String × Bind)}
      (h : PiecesBind rest entries) : PiecesBind (.text s :: rest) entries
  | named {name : String} {bind : Bind} {rest : List Piece} {entries : List (String × Bind)}
      (h : PiecesBind rest entries) :
      PiecesBind (.named name bind :: rest) ((name, bind) :: entries)

/-- Parts of a statement with named parameters, one after the other. -/
inductive PartsBind : List (List Piece) → List (String × Bind) → Prop where
  | nil : PartsBind [] []
  | cons {part : List Piece} {rest : List (List Piece)} {own others : List (String × Bind)}
      (hpart : PiecesBind part own) (hrest : PartsBind rest others) :
      PartsBind (part :: rest) (own ++ others)

namespace PiecesBind

theorem append {pieces others : List Piece} {entries more : List (String × Bind)}
    (h : PiecesBind pieces entries) (hothers : PiecesBind others more) :
    PiecesBind (pieces ++ others) (entries ++ more) := by
  induction h with
  | nil => exact hothers
  | text h ih => exact .text ih
  | named h ih => exact .named ih

/-- Pieces that write nothing have no parameters. -/
theorem eq_nil_of_unwritten {pieces : List Piece} {entries : List (String × Bind)}
    (h : PiecesBind pieces entries) (hwritten : pieces.any Piece.isWritten = false) :
    entries = [] := by
  induction h with
  | nil => rfl
  | text h ih =>
      rw [List.any_cons, Bool.or_eq_false_iff] at hwritten
      exact ih hwritten.2
  | named h ih => simp [Piece.isWritten] at hwritten

theorem sharing_eq {pieces : List Piece} {entries : List (String × Bind)}
    (h : PiecesBind pieces entries) (seen : Bool) : BoundText.sharing seen pieces = pieces := by
  induction h with
  | nil => cases seen <;> rfl
  | text h ih => cases seen <;> rw [BoundText.sharing, ih] <;> exact nofun
  | named h ih => cases seen <;> rw [BoundText.sharing, ih] <;> exact nofun

/-- The parameters of a statement are those of its pieces. -/
theorem parameters_eq {pieces : List Piece} {entries : List (String × Bind)}
    (h : PiecesBind pieces entries) (before : List String) :
    (Part.ofPieces before pieces).filterMap Part.parameter? =
      entries.map fun e ↦ ⟨e.1, e.2, false⟩ := by
  induction h with
  | nil => rfl
  | text h ih => simpa [Part.ofPieces, List.filterMap_cons, Part.parameter?] using ih
  | named h ih => simpa [Part.ofPieces, List.filterMap_cons, Part.parameter?] using ih

theorem params_eq {pieces : List Piece} {entries : List (String × Bind)}
    (h : PiecesBind pieces entries) {st : Statement} (hst : Statement.ofPieces pieces = .ok st) :
    st.params = Parameters.ofPairs (entries.map fun e ↦ (e.1, e.2.value)) := by
  simp only [Statement.ofPieces, h.parameters_eq] at hst
  cases hclash : Parameter.firstClash? [] (entries.map fun e ↦ ⟨e.1, e.2, false⟩) with
  | some fault => simp [hclash] at hst
  | none =>
      simp only [hclash, Except.ok.injEq] at hst
      rw [← hst, Parameters.ofPairs, List.foldl_map, List.foldl_map]

end PiecesBind

namespace PartsBind

theorem filter {parts : List (List Piece)} {entries : List (String × Bind)}
    (h : PartsBind parts entries) : PartsBind (parts.filter (·.any Piece.isWritten)) entries := by
  induction h with
  | nil => exact .nil
  | @cons part rest own others hpart hrest ih =>
      cases hwritten : part.any Piece.isWritten with
      | true => simpa [List.filter_cons, hwritten] using PartsBind.cons hpart ih
      | false => simpa [List.filter_cons, hwritten, hpart.eq_nil_of_unwritten hwritten] using ih

theorem joined {parts : List (List Piece)} {entries : List (String × Bind)}
    (h : PartsBind parts entries) (separator : String) :
    PiecesBind (parts.flatMap fun part ↦ .text separator :: part) entries := by
  induction h with
  | nil => exact .nil
  | cons hpart hrest ih =>
      rw [List.flatMap_cons, List.cons_append]
      exact .text (hpart.append ih)

theorem separated {parts : List (List Piece)} {entries : List (String × Bind)}
    (h : PartsBind parts entries) (separator : String) :
    PiecesBind (Expression.separated separator parts) entries := by
  have hfilter := h.filter
  rw [Expression.separated]
  cases hparts : parts.filter (·.any Piece.isWritten) with
  | nil =>
      rw [hparts] at hfilter
      cases hfilter
      exact .nil
  | cons first rest =>
      rw [hparts] at hfilter
      obtain _ | ⟨hpart, hrest⟩ := hfilter
      exact hpart.append (hrest.joined separator)

end PartsBind

/-! ## Expressions -/

namespace Expression

variable {α : Type} {ofAtom : α → List Piece} {entries : α → List (String × Bind)}

theorem piecesBind_bracketed {pieces : List Piece} {own : List (String × Bind)}
    (h : PiecesBind pieces own) : PiecesBind (bracketed pieces) own := by
  have hall := h.append (.text (s := ")") .nil)
  rw [List.append_nil] at hall
  exact .text hall

mutual

/-- The parameters of an expression are those of its atoms, from the left. -/
theorem piecesBind_pieces : ∀ (e : Expression α),
    (∀ a ∈ atoms e, PiecesBind (ofAtom a) (entries a)) →
    PiecesBind (pieces ofAtom e) ((atoms e).flatMap entries)
  | .atom a, h => by simpa [pieces, atoms] using h a (by simp [atoms])
  | .always, _ => .text .nil
  | .never, _ => .text .nil
  | .all parts, h => (partsBind_partsOfAll parts h).separated " AND "
  | .any parts, h => (partsBind_partsOfAny parts h).separated " OR "
termination_by structural e => e

theorem partsBind_partsOfAll : ∀ (es : List (Expression α)),
    (∀ a ∈ atomsOf es, PiecesBind (ofAtom a) (entries a)) →
    PartsBind (partsOfAll ofAtom es) ((atomsOf es).flatMap entries)
  | [], _ => .nil
  | e :: rest, h => by
      have he := piecesBind_pieces e fun a ha ↦ h a (List.mem_append_left _ ha)
      have hrest := partsBind_partsOfAll rest fun a ha ↦ h a (List.mem_append_right _ ha)
      rw [atomsOf, List.flatMap_append, partsOfAll]
      split
      · exact .cons (piecesBind_bracketed he) hrest
      · exact .cons he hrest
termination_by structural es => es

theorem partsBind_partsOfAny : ∀ (es : List (Expression α)),
    (∀ a ∈ atomsOf es, PiecesBind (ofAtom a) (entries a)) →
    PartsBind (partsOfAny ofAtom es) ((atomsOf es).flatMap entries)
  | [], _ => .nil
  | e :: rest, h => by
      have he := piecesBind_pieces e fun a ha ↦ h a (List.mem_append_left _ ha)
      have hrest := partsBind_partsOfAny rest fun a ha ↦ h a (List.mem_append_right _ ha)
      rw [atomsOf, List.flatMap_append, partsOfAny]
      exact .cons he hrest
termination_by structural es => es

end

end Expression

/-! ## Texts -/

namespace BoundText

/-- What a text binds, placeholder by placeholder. -/
def entries (t : BoundText) : List (String × Bind) := t.binds.map fun b ↦ (b.1, b.2.bind)

/-- A text that has a bind for each of its placeholders and whose binds all go by their names. -/
def IsNamed (t : BoundText) : Prop :=
  ∃ supplyFor : String → Supply, (∀ name, (supplyFor name).named = true) ∧
    t.binds = (placeholderNames t.text).map fun name ↦ (name, supplyFor name)

/-- The name of a placeholder that goes on after some of its characters. -/
def nameAfter (name cs : List Char) : List Char :=
  if (cs.drop (cs.takeWhile Text.isWord).length).head? = some ':' then []
  else name ++ cs.takeWhile Text.isWord

theorem nameAfter_nil (cs : List Char) : nameAfter [] cs = nameAfterColon cs := rfl

theorem nameAfter_word {c : Char} (h : Text.isWord c = true) (name cs : List Char) :
    nameAfter name (c :: cs) = nameAfter (name ++ [c]) cs := by
  simp [nameAfter, h]

theorem nameAfter_end {c : Char} (h : Text.isWord c = false) (name cs : List Char) :
    nameAfter name (c :: cs) = if c = ':' then [] else name := by
  simp [nameAfter, h]

theorem namesFrom_cons_of_mayPrecede_eq_false {before : Option Char} {c : Char}
    (h : (c = ':' && mayPrecede before) = false) (cs : List Char) :
    namesFrom before (c :: cs) = namesFrom (some c) cs := by
  simp [namesFrom, h]

theorem namesFrom_ne_empty (before : Option Char) (cs : List Char) :
    "" ∉ namesFrom before cs := by
  induction cs generalizing before with
  | nil => simp [namesFrom]
  | cons c rest ih =>
      have hrest := ih (some c)
      rw [namesFrom]
      generalize (if (c = ':' && mayPrecede before) = true then nameAfterColon rest else []) = name
      cases name with
      | nil => exact hrest
      | cons d others =>
          have hname : "" ≠ String.ofList (d :: others) := by
            rw [ne_comm, ne_eq, String.ofList_eq_empty_iff]
            exact nofun
          simpa [hname] using hrest

section

variable {names : List String} {supplyFor : String → Supply}

theorem find?_supplies (test : String → Bool) :
    (names.map fun n ↦ (n, supplyFor n)).find? (fun b ↦ test b.1) =
      (names.find? test).map fun n ↦ (n, supplyFor n) := by
  rw [List.find?_map]
  rfl

theorem parameterPiece_of_mem (hnamed : ∀ name, (supplyFor name).named = true) {name : List Char}
    (hname : String.ofList name ∈ names) :
    parameterPiece (names.map fun n ↦ (n, supplyFor n)) name true =
      .named (String.ofList name) (supplyFor (String.ofList name)).bind := by
  have hfind : names.find? (fun n ↦ true && n == String.ofList name) =
      some (String.ofList name) := by
    cases hfind : names.find? (fun n ↦ true && n == String.ofList name) with
    | none =>
        have hnone : ∀ n ∈ names, ¬n = String.ofList name := by simpa using hfind
        exact absurd rfl (hnone _ hname)
    | some found =>
        have hfound : found = String.ofList name := by simpa using List.find?_some hfind
        rw [hfound]
  rw [parameterPiece, find?_supplies (fun n ↦ true && n == String.ofList name), hfind]
  simp [hnamed]

theorem parameterPiece_eq_text {name : List Char} {closed : Bool}
    (h : ∀ n ∈ names, (closed && n == String.ofList name) = false) :
    parameterPiece (names.map fun n ↦ (n, supplyFor n)) name closed =
      .text (String.ofList (':' :: name)) := by
  have hfind : names.find? (fun n ↦ closed && n == String.ofList name) = none := by
    rw [List.find?_eq_none]
    intro n hn heq
    rw [h n hn] at heq
    cases heq
  rw [parameterPiece, find?_supplies (fun n ↦ closed && n == String.ofList name), hfind]
  rfl

/-- What the placeholder with a name binds; a colon without a name is no placeholder. -/
def entryOf (supplyFor : String → Supply) (name : List Char) : List (String × Bind) :=
  if name.isEmpty then [] else [(String.ofList name, (supplyFor (String.ofList name)).bind)]

theorem piecesBind_parameterPiece (hempty : "" ∉ names)
    (hnamed : ∀ name, (supplyFor name).named = true) {name : List Char} (closed : Bool)
    (hname : closed = true → name ≠ [] → String.ofList name ∈ names) :
    PiecesBind [parameterPiece (names.map fun n ↦ (n, supplyFor n)) name closed]
      (entryOf supplyFor (if closed then name else [])) := by
  cases closed with
  | false =>
      rw [parameterPiece_eq_text fun _ _ ↦ rfl]
      exact .text .nil
  | true =>
      cases name with
      | nil =>
          have hnone : ∀ n ∈ names, (true && n == String.ofList []) = false := by
            intro n hn
            rw [Bool.true_and, beq_eq_false_iff_ne]
            rintro rfl
            exact hempty hn
          rw [parameterPiece_eq_text hnone]
          exact .text .nil
      | cons c rest =>
          rw [parameterPiece_of_mem hnamed (hname rfl nofun)]
          exact .named .nil

theorem map_namesFrom_cons_of_mayPrecede {before : Option Char} {c : Char}
    (h : (c = ':' && mayPrecede before) = true) (cs : List Char) :
    (namesFrom before (c :: cs)).map (fun n ↦ (n, (supplyFor n).bind)) =
      entryOf supplyFor (nameAfter [] cs) ++
        (namesFrom (some c) cs).map fun n ↦ (n, (supplyFor n).bind) := by
  rw [namesFrom, if_pos h, entryOf, nameAfter_nil]
  split <;> rfl

theorem mem_namesFrom_of_mayPrecede {before : Option Char} {c : Char}
    (h : (c = ':' && mayPrecede before) = true) {cs : List Char} (hname : nameAfter [] cs ≠ []) :
    String.ofList (nameAfter [] cs) ∈ namesFrom before (c :: cs) := by
  rw [nameAfter_nil] at hname ⊢
  rw [namesFrom, if_pos h, if_neg (by simpa using hname)]
  exact List.mem_cons_self

theorem namesFrom_subset (before : Option Char) (c : Char) (cs : List Char) :
    ∀ n ∈ namesFrom (some c) cs, n ∈ namesFrom before (c :: cs) := by
  intro n hn
  rw [namesFrom]
  generalize (if (c = ':' && mayPrecede before) = true then nameAfterColon cs else []) = name
  cases name with
  | nil => exact hn
  | cons d others => exact List.mem_cons_of_mem _ hn

theorem mayPrecede_of_isWord {c : Char} (h : Text.isWord c = true) :
    mayPrecede (some c) = false := by
  simp [mayPrecede, h]

/-- Writing a text and looking for its placeholders go over it in the same way: the parameters that
are written are those of the placeholders that are found.  Within a name the character in front
does not matter, as long as it lets no placeholder begin. -/
theorem piecesBind_from (hempty : "" ∉ names) (hnamed : ∀ name, (supplyFor name).named = true)
    (cs : List Char) :
    (∀ before, (∀ n ∈ namesFrom before cs, n ∈ names) →
      PiecesBind (piecesFrom (names.map fun n ↦ (n, supplyFor n)) before cs)
        ((namesFrom before cs).map fun n ↦ (n, (supplyFor n).bind))) ∧
    (∀ (name : List Char) (before : Char), mayPrecede (some before) = false →
      (nameAfter name cs ≠ [] → String.ofList (nameAfter name cs) ∈ names) →
      (∀ n ∈ namesFrom (some before) cs, n ∈ names) →
      PiecesBind (nameFrom (names.map fun n ↦ (n, supplyFor n)) name cs)
        (entryOf supplyFor (nameAfter name cs) ++
          (namesFrom (some before) cs).map fun n ↦ (n, (supplyFor n).bind))) := by
  -- Both functions at once: the text enters a name at a colon, and a name goes back to the text
  -- where it ends.
  induction cs with
  | nil =>
      refine ⟨fun before h ↦ .nil, fun name before hbefore hname h ↦ ?_⟩
      have hafter : nameAfter name [] = name := by
        simp [nameAfter]
      rw [hafter] at hname ⊢
      have hpiece := piecesBind_parameterPiece hempty hnamed true fun _ ↦ hname
      simpa [nameFrom, namesFrom] using hpiece
  | cons c rest ih =>
      obtain ⟨ihPieces, ihName⟩ := ih
      constructor
      · intro before h
        have hrest : ∀ n ∈ namesFrom (some c) rest, n ∈ names := fun n hn ↦
          h n (namesFrom_subset before c rest n hn)
        by_cases hcolon : (c = ':' && mayPrecede before) = true
        · have hstay : mayPrecede (some c) = false := by
            simp only [Bool.and_eq_true, decide_eq_true_eq] at hcolon
            rw [hcolon.1]
            decide
          rw [map_namesFrom_cons_of_mayPrecede hcolon, piecesFrom, if_pos hcolon]
          exact ihName [] c hstay (fun hname ↦ h _ (mem_namesFrom_of_mayPrecede hcolon hname)) hrest
        · rw [namesFrom_cons_of_mayPrecede_eq_false (by simpa using hcolon), piecesFrom,
            if_neg hcolon]
          split
          · exact ihPieces _ hrest
          · exact .text (ihPieces _ hrest)
      · intro name before hbefore hname h
        have hstay : (c = ':' && mayPrecede (some before)) = false := by
          simp [hbefore]
        rw [namesFrom_cons_of_mayPrecede_eq_false hstay] at h ⊢
        rw [nameFrom]
        cases hword : Text.isWord c with
        | true =>
            rw [nameAfter_word hword] at hname ⊢
            exact ihName (name ++ [c]) c (mayPrecede_of_isWord hword) hname h
        | false =>
            rw [nameAfter_end hword] at hname ⊢
            have hpieces := ihPieces (some c) h
            rw [if_neg (by simp)]
            by_cases hescape : (c = '\\' && isEscaped rest) = true
            · have hc : c ≠ ':' := by
                rintro rfl
                simp at hescape
              rw [if_neg hc] at hname ⊢
              rw [if_pos hescape]
              exact (piecesBind_parameterPiece hempty hnamed true fun _ ↦ hname).append hpieces
            · have hclosed : (if c = ':' then [] else name) = if c != ':' then name else [] := by
                by_cases hc : c = ':' <;> simp [hc]
              have hpiece : (c != ':') = true → name ≠ [] → String.ofList name ∈ names := by
                intro hc hne
                have hcolon : c ≠ ':' := by simpa using hc
                rw [if_neg hcolon] at hname
                exact hname hne
              rw [if_neg hescape, hclosed]
              exact (piecesBind_parameterPiece hempty hnamed (c != ':') hpiece).append
                (.text hpieces)

end

/-- The parameters of a text are those of its placeholders. -/
theorem IsNamed.piecesBind {t : BoundText} (h : t.IsNamed) : PiecesBind t.pieces t.entries := by
  obtain ⟨supplyFor, hnamed, hbinds⟩ := h
  have hempty : "" ∉ placeholderNames t.text := namesFrom_ne_empty none _
  have hfrom := (piecesBind_from hempty hnamed t.text.toList).1 none fun n hn ↦ hn
  have hentries : t.entries =
      (placeholderNames t.text).map fun n ↦ (n, (supplyFor n).bind) := by
    rw [entries, hbinds, List.map_map]
    rfl
  rw [hentries, pieces, hbinds, hfrom.sharing_eq]
  exact hfrom

/-- The values that a text has for a placeholder. -/
def valuesFor (name : String) (t : BoundText) : List Value :=
  t.binds.filterMap fun b ↦ if b.1 = name then some b.2.bind.value else none

theorem settle_named {supplies : List (String × Supply)} (h : ∀ s ∈ supplies, s.2.named = true)
    {b : String × Supply} (hb : b.2.named = true) : (settle supplies b).2.named = true := by
  induction supplies generalizing b with
  | nil => exact hb
  | cons s rest ih =>
      rw [settle_cons]
      apply ih fun r hr ↦ h r (List.mem_cons_of_mem s hr)
      split
      · exact h s List.mem_cons_self
      · exact hb

section

variable {query : String} {parameters : Parameters} {t : BoundText}

theorem suppliesIn_of_ne_empty (hne : ∀ p ∈ parameters, p.1 ≠ "") :
    suppliesIn query parameters =
      parameters.map fun p ↦ (p.1, ⟨⟨p.2, (listNames query).contains p.1⟩, true⟩) := by
  apply List.map_congr_left
  intro p hp
  rw [supplyIn, supplyOf, if_neg (by simpa using hne p hp)]

theorem binds_of_ofFragment (h : ofFragment query parameters = .ok t) :
    t.text = statementOf query ∧ t.binds = (placeholderNames (statementOf query)).map fun name ↦
      settle (suppliesIn query parameters) (name, ⟨⟨.null, false⟩, true⟩) := by
  obtain ⟨-, -, rfl⟩ := ofFragment_eq_ok_iff.mp h
  refine ⟨rfl, ?_⟩
  simp only [bare, List.map_map, Function.comp_def]

theorem isNamed_of_ofFragment (h : ofFragment query parameters = .ok t)
    (hne : ∀ p ∈ parameters, p.1 ≠ "") : t.IsNamed := by
  obtain ⟨htext, hbinds⟩ := binds_of_ofFragment h
  refine ⟨fun name ↦ (settle (suppliesIn query parameters) (name, ⟨⟨.null, false⟩, true⟩)).2,
    fun name ↦ settle_named ?_ rfl, ?_⟩
  · rw [suppliesIn_of_ne_empty hne]
    intro s hs
    obtain ⟨p, -, rfl⟩ := List.mem_map.mp hs
    rfl
  · rw [htext, hbinds]
    apply List.map_congr_left
    intro name hname
    exact Prod.ext (settle_fst _ _) rfl

/-- A text that a fragment becomes has the values of its parameters for their placeholders. -/
theorem valuesFor_of_ofFragment (h : ofFragment query parameters = .ok t)
    (hne : ∀ p ∈ parameters, p.1 ≠ "") (hnodup : (parameters.map (·.1)).Nodup)
    {p : String × Value} (hp : p ∈ parameters) :
    valuesFor p.1 t ≠ [] ∧ ∀ v ∈ valuesFor p.1 t, v = p.2 := by
  obtain ⟨-, hbinds⟩ := binds_of_ofFragment h
  obtain ⟨-, hasked, -⟩ := ofFragment_eq_ok_iff.mp h
  have hsupplies : suppliesIn query parameters = parameters.map fun p ↦
      (p.1, ⟨⟨p.2, (listNames query).contains p.1⟩, true⟩) := suppliesIn_of_ne_empty hne
  have hnames : ((suppliesIn query parameters).map (·.1)).Nodup := by
    rw [hsupplies, List.map_map]
    exact hnodup
  have hmem : (p.1, ⟨⟨p.2, (listNames query).contains p.1⟩, true⟩) ∈
      suppliesIn query parameters := by
    rw [hsupplies]
    exact List.mem_map_of_mem hp
  have hsettle : settle (suppliesIn query parameters) (p.1, ⟨⟨.null, false⟩, true⟩) =
      (p.1, ⟨⟨p.2, (listNames query).contains p.1⟩, true⟩) := settle_of_mem hnames hmem rfl
  constructor
  · have hbind : (p.1, ⟨⟨p.2, (listNames query).contains p.1⟩, true⟩) ∈ t.binds := by
      rw [hbinds]
      exact List.mem_map.mpr ⟨p.1, hasked _ hmem, hsettle⟩
    have hvalue : p.2 ∈ valuesFor p.1 t := List.mem_filterMap.mpr ⟨_, hbind, by simp⟩
    exact List.ne_nil_of_mem hvalue
  · intro v hv
    obtain ⟨b, hb, hvalue⟩ := List.mem_filterMap.mp hv
    rw [hbinds] at hb
    obtain ⟨name, -, rfl⟩ := List.mem_map.mp hb
    rw [settle_fst] at hvalue
    split at hvalue
    · next heq =>
        subst heq
        rw [hsettle] at hvalue
        exact (Option.some.inj hvalue).symm
    · cases hvalue

end

end BoundText

namespace WhereClause

open Clause (Path)

/-- The parameters of a statement have, for each name, the last of the values that the texts of the
where clause have for the placeholder. -/
theorem get?_params_statement {w : WhereClause} {path : Path} {st : Statement}
    (hnamed : ∀ t ∈ w.atoms path, t.IsNamed) (h : w.statement? path = .ok (some st))
    (name : String) :
    st.params.get? name = ((w.atoms path).flatMap (BoundText.valuesFor name)).getLast? := by
  rw [atoms] at hnamed ⊢
  rw [statement?] at h
  cases hbuild : w.build? path with
  | none => simp [hbuild] at h
  | some e =>
      simp only [hbuild, Option.map_some, Option.getD_some] at hnamed h ⊢
      have hpieces : PiecesBind (e.pieces BoundText.pieces) (e.atoms.flatMap BoundText.entries) :=
        Expression.piecesBind_pieces e fun t ht ↦ (hnamed t ht).piecesBind
      cases hst : Statement.ofPieces (e.pieces BoundText.pieces) with
      | error fault => simp [hst, Except.map] at h
      | ok st' =>
          obtain rfl : st' = st := by simpa [hst, Except.map] using h
          have hvalues : (e.atoms.flatMap BoundText.entries).filterMap
              (fun b ↦ if b.1 = name then some b.2.value else none) =
                e.atoms.flatMap (BoundText.valuesFor name) := by
            rw [List.filterMap_flatMap]
            congr 1
            funext t
            rw [BoundText.entries, List.filterMap_map]
            rfl
          rw [hpieces.params_eq hst, Parameters.get?_ofPairs, Parameters.valuesOf,
            List.filterMap_map, ← hvalues]
          rfl

end WhereClause

end Sql

end Criteria
