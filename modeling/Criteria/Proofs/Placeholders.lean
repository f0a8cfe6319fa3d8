import Mathlib.Data.List.Basic
import Criteria.Proofs.WordNames
import Criteria.Sql.BoundText

/-!
# Placeholders of a query

A query spells placeholders when a colon stands in it only where a placeholder begins, with a blank
or a blank and a bracket in front and with something behind it that ends its name.  All ways of
looking for placeholders then find the same ones: scanning the query, taking out the lists to be
spread out, and scanning the statement that is left.
-/

namespace Criteria

/-- A placeholder, and whether it stands for a list that is spread out. -/
structure Placeholder where
  name : String
  spread : Bool
  deriving DecidableEq

/-- The name that characters begin with, if any. -/
def wordAt? (cs : List Char) : Option String :=
  if (cs.takeWhile Text.isWord).isEmpty then none
  else some (String.ofList (cs.takeWhile Text.isWord))

/-- The placeholder that characters begin with: `:name` or `:...name`. -/
def placeholderAt? : List Char → Option Placeholder
  | ':' :: '.' :: '.' :: '.' :: rest => (wordAt? rest).map (⟨·, true⟩)
  | ':' :: rest => (wordAt? rest).map (⟨·, false⟩)
  | _ => none

/-- The placeholders of a query, from the left. -/
def placeholders (query : String) : List Placeholder := query.toList.tails.filterMap placeholderAt?

/-- What follows the name of a placeholder is none of its characters and no colon. -/
def Stops (cs : List Char) : Prop := ∀ c ∈ cs.head?, Text.isWord c = false ∧ c ≠ ':'

/-- Characters in which placeholders stand where they can be told from the rest. -/
inductive Spells : List Char → List Placeholder → Prop where
  | nil : Spells [] []
  | char {c : Char} {cs : List Char} {ps : List Placeholder} (hc : c ≠ ':') (h : Spells cs ps) :
      Spells (c :: cs) ps
  | single {name cs : List Char} {ps : List Placeholder} (hne : name ≠ [])
      (hname : IsWordOnly name) (hstop : Stops cs) (h : Spells cs ps) :
      Spells (' ' :: ':' :: (name ++ cs)) (⟨String.ofList name, false⟩ :: ps)
  | list {name cs : List Char} {ps : List Placeholder} (hne : name ≠ [])
      (hname : IsWordOnly name) (hstop : Stops cs) (h : Spells cs ps) :
      Spells (' ' :: '(' :: ':' :: '.' :: '.' :: '.' :: (name ++ ')' :: cs))
        (⟨String.ofList name, true⟩ :: ps)

theorem Stops.append {cs : List Char} (h : Stops cs) {others : List Char} (hothers : Stops others) :
    Stops (cs ++ others) := by
  cases cs with
  | nil => exact hothers
  | cons c rest => exact h

theorem takeWhile_isWord {name cs : List Char} (hname : IsWordOnly name) (hstop : Stops cs) :
    (name ++ cs).takeWhile Text.isWord = name := by
  rw [List.takeWhile_append_of_pos hname]
  cases cs with
  | nil => simp
  | cons c rest =>
      obtain ⟨hword, -⟩ := hstop c rfl
      simp [hword]

theorem wordAt?_append {name cs : List Char} (hne : name ≠ []) (hname : IsWordOnly name)
    (hstop : Stops cs) : wordAt? (name ++ cs) = some (String.ofList name) := by
  rw [wordAt?, takeWhile_isWord hname hstop]
  simp [hne]

namespace Spells

theorem plain_append {cs others : List Char} {ps : List Placeholder} (hcs : ':' ∉ cs)
    (h : Spells others ps) : Spells (cs ++ others) ps := by
  induction cs with
  | nil => exact h
  | cons c rest ih =>
      rw [List.mem_cons, not_or] at hcs
      exact .char (Ne.symm hcs.1) (ih hcs.2)

theorem of_plain {cs : List Char} (h : ':' ∉ cs) : Spells cs [] := by
  simpa using plain_append h .nil

theorem append {cs others : List Char} {ps qs : List Placeholder} (h : Spells cs ps)
    (hothers : Spells others qs) (hstops : Stops others) : Spells (cs ++ others) (ps ++ qs) := by
  induction h with
  | nil => exact hothers
  | char hc h ih => exact .char hc ih
  | single hne hname hstop h ih =>
      rw [List.cons_append, List.cons_append, List.append_assoc]
      exact .single hne hname (hstop.append hstops) ih
  | list hne hname hstop h ih =>
      simp only [List.cons_append, List.append_assoc]
      exact .list hne hname (hstop.append hstops) ih

theorem eq_nil {ps : List Placeholder} (h : Spells [] ps) : ps = [] := by
  cases h
  rfl

end Spells

/-! ## Scanning the query -/

theorem placeholderAt?_cons_of_ne {c : Char} (h : c ≠ ':') (cs : List Char) :
    placeholderAt? (c :: cs) = none := by
  rw [placeholderAt?]
  · intro rest heq
    exact h (List.cons.inj heq).1
  · intro rest heq
    exact h (List.cons.inj heq).1

theorem placeholderAt?_colon {name cs : List Char} (hne : name ≠ []) (hname : IsWordOnly name)
    (hstop : Stops cs) :
    placeholderAt? (':' :: (name ++ cs)) = some ⟨String.ofList name, false⟩ := by
  have hpoint : ∀ rest, name ++ cs ≠ '.' :: rest := by
    intro rest heq
    cases name with
    | nil => exact hne rfl
    | cons c others =>
        have hc : Text.isWord c = true := hname c List.mem_cons_self
        rw [(List.cons.inj heq).1] at hc
        exact absurd hc (by decide)
  rw [placeholderAt?, wordAt?_append hne hname hstop, Option.map_some]
  intro rest heq
  exact hpoint _ heq

theorem placeholderAt?_list {name cs : List Char} (hne : name ≠ []) (hname : IsWordOnly name) :
    placeholderAt? (':' :: '.' :: '.' :: '.' :: (name ++ ')' :: cs)) =
      some ⟨String.ofList name, true⟩ := by
  have hstop : Stops (')' :: cs) := by
    rintro c ⟨⟩
    decide
  rw [placeholderAt?, wordAt?_append hne hname hstop, Option.map_some]

theorem filterMap_tails_cons {c : Char} (h : c ≠ ':') (cs : List Char) :
    (c :: cs).tails.filterMap placeholderAt? = cs.tails.filterMap placeholderAt? := by
  rw [List.tails, List.filterMap_cons_none (placeholderAt?_cons_of_ne h cs)]

theorem filterMap_tails_append {name : List Char} (h : IsWordOnly name) (cs : List Char) :
    (name ++ cs).tails.filterMap placeholderAt? = cs.tails.filterMap placeholderAt? := by
  induction name with
  | nil => rfl
  | cons c rest ih =>
      have hc : c ≠ ':' := by
        rintro rfl
        exact h.notMem (by decide) List.mem_cons_self
      rw [List.cons_append, filterMap_tails_cons hc, ih fun d hd ↦ h d (List.mem_cons_of_mem c hd)]

/-- Scanning finds the placeholders that are spelled, in order. -/
theorem Spells.filterMap_tails {cs : List Char} {ps : List Placeholder} (h : Spells cs ps) :
    cs.tails.filterMap placeholderAt? = ps := by
  induction h with
  | nil => rfl
  | char hc h ih => rw [filterMap_tails_cons hc, ih]
  | single hne hname hstop h ih =>
      rw [filterMap_tails_cons (by decide), List.tails,
        List.filterMap_cons_some (placeholderAt?_colon hne hname hstop),
        filterMap_tails_append hname, ih]
  | list hne hname hstop h ih =>
      rw [filterMap_tails_cons (by decide), filterMap_tails_cons (by decide), List.tails,
        List.filterMap_cons_some (placeholderAt?_list hne hname)]
      simp only [filterMap_tails_cons (show '.' ≠ ':' by decide)]
      rw [filterMap_tails_append hname, filterMap_tails_cons (by decide), ih]

namespace Sql

/-! ## Taking out the lists -/

theorem spreadAt?_cons_of_ne {c : Char} (h : c ≠ ':') (cs : List Char) :
    spreadAt? (c :: cs) = none := by
  rw [spreadAt?]
  intro rest heq
  exact h (List.cons.inj heq).1

theorem spreadAt?_colon {name : List Char} (hne : name ≠ []) (hname : IsWordOnly name)
    (cs : List Char) : spreadAt? (':' :: (name ++ cs)) = none := by
  rw [spreadAt?]
  intro rest heq
  cases name with
  | nil => exact hne rfl
  | cons c others =>
      have hc : Text.isWord c = true := hname c List.mem_cons_self
      rw [(List.cons.inj (List.cons.inj heq).2).1] at hc
      exact absurd hc (by decide)

theorem spreadAt?_dropWhile {cs : List Char} {ps : List Placeholder} (h : Spells cs ps) :
    spreadAt? (cs.dropWhile Text.isBlank) = none := by
  induction h with
  | nil => rfl
  | @char c rest ps hc h ih =>
      rw [List.dropWhile_cons]
      split
      · exact ih
      · exact spreadAt?_cons_of_ne hc rest
  | single hne hname hstop h ih =>
      rw [List.dropWhile_cons_of_pos (by decide), List.dropWhile_cons_of_neg (by decide)]
      exact spreadAt?_colon hne hname _
  | list hne hname hstop h ih =>
      rw [List.dropWhile_cons_of_pos (by decide), List.dropWhile_cons_of_neg (by decide)]
      exact spreadAt?_cons_of_ne (by decide) _

theorem bracketedAt?_cons_of_ne {c : Char} (h : c ≠ '(') (cs : List Char) :
    bracketedAt? (c :: cs) = none := by
  rw [bracketedAt?]
  intro rest heq
  exact h (List.cons.inj heq).1

theorem listPlaceholderAt?_cons_of_ne {c : Char} (hopen : c ≠ '(') (hcolon : c ≠ ':')
    (cs : List Char) : listPlaceholderAt? (c :: cs) = none := by
  rw [listPlaceholderAt?, bracketedAt?_cons_of_ne hopen, spreadAt?_cons_of_ne hcolon]

theorem listPlaceholderAt?_of_spells {c : Char} (hc : c ≠ ':') {cs : List Char}
    {ps : List Placeholder} (h : Spells cs ps) : listPlaceholderAt? (c :: cs) = none := by
  have hbracket : bracketedAt? (c :: cs) = none := by
    by_cases hopen : c = '('
    · subst hopen
      rw [bracketedAt?, spreadAt?_dropWhile h]
    · exact bracketedAt?_cons_of_ne hopen cs
  rw [listPlaceholderAt?, hbracket, spreadAt?_cons_of_ne hc]

theorem listPlaceholderAt?_colon {name : List Char} (hne : name ≠ []) (hname : IsWordOnly name)
    (cs : List Char) : listPlaceholderAt? (':' :: (name ++ cs)) = none := by
  rw [listPlaceholderAt?, bracketedAt?_cons_of_ne (by decide), spreadAt?_colon hne hname]

theorem listPlaceholderAt?_bracketed {name : List Char} (hne : name ≠ []) (hname : IsWordOnly name)
    (cs : List Char) :
    listPlaceholderAt? ('(' :: ':' :: '.' :: '.' :: '.' :: (name ++ ')' :: cs)) =
      some (name, name.length + 6) := by
  have hstop : Stops (')' :: cs) := by
    rintro c ⟨⟩
    decide
  have htake : (name ++ ')' :: cs).takeWhile Text.isWord = name := takeWhile_isWord hname hstop
  have hspread : spreadAt? (':' :: '.' :: '.' :: '.' :: (name ++ ')' :: cs)) =
      some (name, 4 + name.length) := by
    rw [spreadAt?, htake]
    simp [hne]
  have hdrop : (':' :: '.' :: '.' :: '.' :: (name ++ ')' :: cs)).drop (4 + name.length) =
      ')' :: cs := by
    rw [Nat.add_comm]
    simp
  have hbracket : bracketedAt? ('(' :: ':' :: '.' :: '.' :: '.' :: (name ++ ')' :: cs)) =
      some (name, name.length + 6) := by
    rw [bracketedAt?, List.dropWhile_cons_of_neg (by decide), hspread]
    simp only [hdrop, List.dropWhile_cons_of_neg (show ¬Text.isBlank ')' = true by decide),
      Option.some.injEq, Prod.mk.injEq, true_and, List.length_cons, List.length_append]
    omega
  rw [listPlaceholderAt?, hbracket]

theorem signsFrom_char {c : Char} {cs : List Char} (h : listPlaceholderAt? (c :: cs) = none) :
    signsFrom 0 (c :: cs) = .char c :: signsFrom 0 cs := by
  rw [signsFrom, h]

theorem signsFrom_skipped (skipped cs : List Char) :
    signsFrom skipped.length (skipped ++ cs) = signsFrom 0 cs := by
  induction skipped with
  | nil => rfl
  | cons c rest ih => rw [List.length_cons, List.cons_append, signsFrom, ih]

theorem signsFrom_word {name : List Char} (hname : IsWordOnly name) (cs : List Char) :
    signsFrom 0 (name ++ cs) = name.map .char ++ signsFrom 0 cs := by
  induction name with
  | nil => rfl
  | cons c rest ih =>
      have hopen : c ≠ '(' := by
        rintro rfl
        exact hname.notMem (by decide) List.mem_cons_self
      have hcolon : c ≠ ':' := by
        rintro rfl
        exact hname.notMem (by decide) List.mem_cons_self
      rw [List.cons_append, signsFrom_char (listPlaceholderAt?_cons_of_ne hopen hcolon _),
        ih fun d hd ↦ hname d (List.mem_cons_of_mem c hd), List.map_cons, List.cons_append]

theorem signsFrom_bracketed {name : List Char} (hne : name ≠ []) (hname : IsWordOnly name)
    (cs : List Char) :
    signsFrom 0 ('(' :: ':' :: '.' :: '.' :: '.' :: (name ++ ')' :: cs)) =
      .spread name :: signsFrom 0 cs := by
  have hskipped := signsFrom_skipped (':' :: '.' :: '.' :: '.' :: (name ++ [')'])) cs
  simp only [List.length_cons, List.length_append, List.length_nil, List.cons_append,
    List.append_assoc, List.nil_append] at hskipped
  rw [signsFrom, listPlaceholderAt?_bracketed hne hname]
  exact congrArg _ hskipped

theorem flatMap_chars_map_char (cs : List Char) : (cs.map Sign.char).flatMap Sign.chars = cs := by
  induction cs with
  | nil => rfl
  | cons c rest ih => rw [List.map_cons, List.flatMap_cons, ih, Sign.chars, List.singleton_append]

/-- The lists are taken out, and the statement that is left spells the same names. -/
theorem signsFrom_of_spells {cs : List Char} {ps : List Placeholder} (h : Spells cs ps) :
    (signsFrom 0 cs).filterMap Sign.spreadName? = (ps.filter (·.spread)).map (·.name) ∧
    Spells ((signsFrom 0 cs).flatMap Sign.chars) (ps.map fun p ↦ ⟨p.name, false⟩) ∧
    ((signsFrom 0 cs).flatMap Sign.chars).head? = cs.head? := by
  -- What is left begins like the text that it comes from, so a name that stops in front of the one
  -- stops in front of the other.
  have hstops : ∀ {cs others : List Char}, others.head? = cs.head? → Stops cs → Stops others :=
    fun heq hstop c hc ↦ hstop c (heq ▸ hc)
  induction h with
  | nil => exact ⟨rfl, .nil, rfl⟩
  | char hc h ih =>
      obtain ⟨hlists, hspells, -⟩ := ih
      rw [signsFrom_char (listPlaceholderAt?_of_spells hc h)]
      exact ⟨hlists, .char hc hspells, rfl⟩
  | single hne hname hstop h ih =>
      obtain ⟨hlists, hspells, hhead⟩ := ih
      rw [signsFrom_char (listPlaceholderAt?_cons_of_ne (by decide) (by decide) _),
        signsFrom_char (listPlaceholderAt?_colon hne hname _), signsFrom_word hname]
      refine ⟨?_, ?_, rfl⟩
      · simpa [List.filterMap_cons, Sign.spreadName?, Function.comp_def] using hlists
      · simp only [List.flatMap_cons, List.flatMap_append, flatMap_chars_map_char]
        exact .single hne hname (hstops hhead hstop) hspells
  | list hne hname hstop h ih =>
      obtain ⟨hlists, hspells, hhead⟩ := ih
      rw [signsFrom_char (listPlaceholderAt?_cons_of_ne (by decide) (by decide) _),
        signsFrom_bracketed hne hname]
      refine ⟨?_, ?_, rfl⟩
      · simpa [List.filterMap_cons, Sign.spreadName?] using hlists
      · simp only [List.flatMap_cons]
        exact .single hne hname (hstops hhead hstop) hspells

/-! ## Scanning the statement -/

theorem namesFrom_cons_of_ne {c : Char} (h : c ≠ ':') (before : Option Char) (cs : List Char) :
    namesFrom before (c :: cs) = namesFrom (some c) cs := by
  simp [namesFrom, h]

theorem namesFrom_word {name : List Char} (hname : IsWordOnly name) {cs : List Char}
    {names : List String} (h : ∀ before, namesFrom before cs = names) (before : Option Char) :
    namesFrom before (name ++ cs) = names := by
  induction name generalizing before with
  | nil => exact h before
  | cons c rest ih =>
      have hcolon : c ≠ ':' := by
        rintro rfl
        exact hname.notMem (by decide) List.mem_cons_self
      rw [List.cons_append, namesFrom_cons_of_ne hcolon]
      exact ih (fun d hd ↦ hname d (List.mem_cons_of_mem c hd)) _

theorem nameAfterColon_append {name cs : List Char} (hname : IsWordOnly name) (hstop : Stops cs) :
    nameAfterColon (name ++ cs) = name := by
  have hcolon : cs.head? ≠ some ':' := fun hc ↦ (hstop ':' hc).2 rfl
  rw [nameAfterColon, takeWhile_isWord hname hstop]
  simp [hcolon]

/-- A statement without lists has the names that are spelled in it as its placeholders. -/
theorem namesFrom_of_spells {cs : List Char} {ps : List Placeholder} (h : Spells cs ps)
    (hsingle : ∀ p ∈ ps, p.spread = false) (before : Option Char) :
    namesFrom before cs = ps.map (·.name) := by
  induction h generalizing before with
  | nil => rfl
  | char hc h ih => rw [namesFrom_cons_of_ne hc, ih hsingle]
  | @single name cs ps hne hname hstop h ih =>
      have hrest : ∀ before, namesFrom before cs = ps.map (·.name) :=
        ih fun p hp ↦ hsingle p (List.mem_cons_of_mem _ hp)
      have hblank : mayPrecede (some ' ') = true := by decide
      rw [namesFrom_cons_of_ne (by decide), namesFrom, nameAfterColon_append hname hstop,
        namesFrom_word hname hrest]
      simp [hblank, hne]
  | list hne hname hstop h ih =>
      have hspread := hsingle _ List.mem_cons_self
      cases hspread

end Sql

end Criteria
