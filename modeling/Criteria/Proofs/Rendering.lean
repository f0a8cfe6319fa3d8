import Criteria.Proofs.Precedence

/-!
# Rendered clauses are read as they were meant

What a builder renders can be read, and read under precedence it says what its items say: a group
stands in brackets, a group without clauses is left out together with its join, and so the join of
whatever comes first is dropped.  The clauses must be written, for a group is taken to be without
clauses when its text is empty.
-/

namespace Criteria.Clause

/-! ## The text of signs -/

theorem tokensText_cons (token : Token) (tokens : List Token) :
    tokensText (token :: tokens) = token.text ++ tokensText tokens := by
  have hfold : ∀ (texts : List String) (front : String),
      texts.foldl (· ++ ·) front = front ++ texts.foldl (· ++ ·) "" := by
    intro texts
    induction texts with
    | nil => simp
    | cons text texts ih =>
        intro front
        rw [List.foldl_cons, List.foldl_cons, ih, ih ("" ++ text)]
        simp [String.append_assoc]
  simp only [tokensText, String.join, List.map_cons, List.foldl_cons]
  rw [hfold]
  simp

theorem tokensText_append (tokens others : List Token) :
    tokensText (tokens ++ others) = tokensText tokens ++ tokensText others := by
  induction tokens with
  | nil => simp [tokensText, String.join]
  | cons token tokens ih =>
      rw [List.cons_append, tokensText_cons, ih, tokensText_cons, String.append_assoc]

theorem tokensText_append_ne_empty {tokens : List Token} (h : tokensText tokens ≠ "")
    (others : List Token) : tokensText (tokens ++ others) ≠ "" := by
  rw [tokensText_append]
  intro hempty
  exact h (String.append_eq_empty_iff.mp hempty).1

/-- The clause that a sign is, if it is one. -/
def Token.query? : Token → Option String
  | query text => some text
  | _ => none

/-- The clauses among signs, from the left. -/
def queries (tokens : List Token) : List String := tokens.filterMap Token.query?

theorem tokensText_ne_empty_of_mem_queries {tokens : List Token} {text : String}
    (h : text ∈ queries tokens) (htext : text ≠ "") : tokensText tokens ≠ "" := by
  obtain ⟨token, htoken, hquery⟩ := List.mem_filterMap.mp h
  obtain rfl : token = .query text := by
    cases token <;> simp_all [Token.query?]
  obtain ⟨front, behind, rfl⟩ := List.append_of_mem htoken
  rw [tokensText_append, tokensText_cons]
  intro hempty
  have hrest := (String.append_eq_empty_iff.mp hempty).2
  exact htext (String.append_eq_empty_iff.mp hrest).1

theorem joinParts_cons (j : Join) (first : List Token) (rest : List (Join × List Token)) :
    joinParts ((j, first) :: rest) = first ++ rest.flatMap fun p ↦ .joined p.1 :: p.2 := rfl

theorem queries_joinParts (parts : List (Join × List Token)) :
    queries (joinParts parts) = parts.flatMap (queries ·.2) := by
  have hrest : ∀ rest : List (Join × List Token),
      queries (rest.flatMap fun p ↦ .joined p.1 :: p.2) = rest.flatMap (queries ·.2) := by
    intro rest
    induction rest with
    | nil => rfl
    | cons p rest ih =>
        simp only [List.flatMap_cons, queries, List.cons_append, List.filterMap_append,
          List.filterMap_cons, Token.query?] at ih ⊢
        rw [ih]
  cases parts with
  | nil => rfl
  | cons p rest =>
      obtain ⟨j, first⟩ := p
      have hsplit : queries (joinParts ((j, first) :: rest)) = queries first ++
          queries (rest.flatMap fun p ↦ .joined p.1 :: p.2) := List.filterMap_append
      rw [hsplit, hrest, List.flatMap_cons]

/-- The clauses in the text of items are those of the items, from the left. -/
theorem queries_tokensOf (items : List (Item Fragment))
    (h : ∀ f ∈ Item.contents items, f.query ≠ "") :
    queries (tokensOf items) = (Item.contents items).map (·.query) := by
  induction items using Item.sequence_induction with
  | nil => rfl
  | clause j content rest ih =>
      have hrest := ih fun f hf ↦ h f (by simp [Item.contents, hf])
      rw [tokensOf, queries_joinParts] at hrest ⊢
      simp only [itemParts, itemPart, List.flatMap_cons, hrest, Item.contents, Item.contentsOf]
      rfl
  | group j inner rest ihInner ih =>
      have hinner := ihInner fun f hf ↦ h f (by simp [Item.contents, Item.contentsOf, hf])
      have hrest := ih fun f hf ↦ h f (by simp [Item.contents, hf])
      rw [tokensOf, queries_joinParts] at hrest ⊢
      rw [Item.contents, Item.contentsOf, List.map_append, ← hinner, ← hrest]
      simp only [itemParts, itemPart, bracketed?]
      by_cases hempty : tokensText (joinParts (itemParts inner)) = ""
      · -- A group without text has no clauses, for each of them would be written in it.
        have hnone : queries (tokensOf inner) = [] := by
          apply List.eq_nil_iff_forall_not_mem.mpr
          intro text htext
          have hwritten : text ≠ "" := by
            rw [hinner] at htext
            obtain ⟨f, hf, rfl⟩ := List.mem_map.mp htext
            exact h f (by simp [Item.contents, Item.contentsOf, hf])
          exact tokensText_ne_empty_of_mem_queries htext hwritten hempty
        simp [hempty, hnone]
      · have hbrackets : queries (.opening :: (joinParts (itemParts inner) ++ [.closing])) =
            queries (tokensOf inner) := by
          rw [queries, List.filterMap_cons_none rfl, List.filterMap_append]
          exact List.append_nil _
        simp [hempty, hbrackets]

/-! ## Reading parts -/

/-- Signs that read as an operand: something is written, and a reader in front of them comes out
behind an operand with the truth `v`, in whatever brackets it is. -/
structure ReadsAs (truth : Nat → Bool) (count : Nat) (tokens : List Token) (v : Bool)
    (next : Nat) : Prop where
  written : tokensText tokens ≠ ""
  run : ∀ outer here, (Reader.front outer here count).run truth tokens =
    some (.behind outer (here.operand v) next)

/-- Parts that read as operands, one after the other. -/
inductive PartsRead (truth : Nat → Bool) :
    Nat → List (Join × List Token) → List (Join × Bool) → Nat → Prop where
  | nil (count : Nat) : PartsRead truth count [] [] count
  | cons {count middle next : Nat} {j : Join} {tokens : List Token} {v : Bool}
      {parts : List (Join × List Token)} {values : List (Join × Bool)}
      (first : ReadsAs truth count tokens v middle)
      (rest : PartsRead truth middle parts values next) :
      PartsRead truth count ((j, tokens) :: parts) ((j, v) :: values) next

theorem ReadsAs.query (truth : Nat → Bool) (count : Nat) {text : String} (h : text ≠ "") :
    ReadsAs truth count [.query text] (truth count) (count + 1) where
  written := by simpa [tokensText, String.join, Token.text] using h
  run outer here := rfl

theorem PartsRead.of_nil {truth : Nat → Bool} {count next : Nat}
    {parts : List (Join × List Token)} (h : PartsRead truth count parts [] next) :
    parts = [] ∧ next = count := by
  cases h
  exact ⟨rfl, rfl⟩

/-- A reader behind an operand goes on over parts with their joins in front of them. -/
theorem PartsRead.run_joined {truth : Nat → Bool} {count next : Nat}
    {parts : List (Join × List Token)} {values : List (Join × Bool)}
    (h : PartsRead truth count parts values next) (outer : List Runs) (here : Runs) :
    (Reader.behind outer here count).run truth
        (parts.flatMap fun p ↦ .joined p.1 :: p.2) =
      some (.behind outer (here.extend values) next) := by
  induction h generalizing here with
  | nil count => rfl
  | @cons count middle next j tokens v parts values first rest ih =>
      rw [List.flatMap_cons, List.cons_append, Reader.run_cons]
      change ((Reader.front outer (here.after j) count).run truth
        (tokens ++ parts.flatMap fun p ↦ .joined p.1 :: p.2)) = _
      rw [Reader.run_append, first.run, Option.bind_some, ih]
      rfl

theorem PartsRead.run_joinParts {truth : Nat → Bool} {count next : Nat} {j : Join} {v : Bool}
    {parts : List (Join × List Token)} {values : List (Join × Bool)}
    (h : PartsRead truth count parts ((j, v) :: values) next) (outer : List Runs) (here : Runs) :
    (Reader.front outer here count).run truth (joinParts parts) =
      some (.behind outer ((here.operand v).extend values) next) := by
  obtain _ | ⟨first, rest⟩ := h
  rw [joinParts_cons, Reader.run_append, first.run, Option.bind_some, rest.run_joined]

theorem PartsRead.written_joinParts {truth : Nat → Bool} {count next : Nat} {p : Join × Bool}
    {parts : List (Join × List Token)} {values : List (Join × Bool)}
    (h : PartsRead truth count parts (p :: values) next) : tokensText (joinParts parts) ≠ "" := by
  obtain _ | ⟨first, rest⟩ := h
  exact tokensText_append_ne_empty first.written _

/-- Parts in brackets read as one operand, and their truth is that of the sequence. -/
theorem PartsRead.bracketed {truth : Nat → Bool} {count next : Nat} {j : Join} {v : Bool}
    {parts : List (Join × List Token)} {values : List (Join × Bool)}
    (h : PartsRead truth count parts ((j, v) :: values) next) :
    ReadsAs truth count (.opening :: (joinParts parts ++ [.closing]))
      ((Runs.start.operand v).extend values).value next where
  written := by
    rw [tokensText_cons]
    intro hempty
    exact absurd (String.append_eq_empty_iff.mp hempty).1 (by decide)
  run outer here := by
    rw [Reader.run_cons]
    change ((Reader.front (here :: outer) .start count).run truth
      (joinParts parts ++ [.closing])) = _
    rw [Reader.run_append, h.run_joinParts, Option.bind_some]
    rfl

/-! ## Reading items -/

/-- The parts of items read as the operands that the items contribute.  A group reads as an operand
just when its own parts do not come to nothing. -/
theorem partsRead_itemParts (truth : Nat → Bool) (count : Nat) (items : List (Item Fragment))
    (h : ∀ f ∈ Item.contents items, f.query ≠ "") :
    PartsRead truth count (itemParts items) (operands truth count items)
      (count + (Item.contents items).length) := by
  induction items using Item.sequence_induction generalizing count with
  | nil => exact .nil count
  | clause j content rest ih =>
      have hcontent : content.query ≠ "" := h content (by simp [Item.contents, Item.contentsOf])
      have hrest := ih (count + 1) fun f hf ↦ h f (by simp [Item.contents, hf])
      have hnext : count + 1 + (Item.contents rest).length =
          count + (Item.contents (.clause j content :: rest)).length := by
        simp only [Item.contents, Item.contentsOf, List.length_append, List.length_singleton]
        omega
      rw [hnext] at hrest
      exact .cons (.query truth count hcontent) hrest
  | group j inner rest ihInner ih =>
      have hinner := ihInner count fun f hf ↦ h f (by simp [Item.contents, Item.contentsOf, hf])
      have hrest := ih (count + (Item.contents inner).length) fun f hf ↦
        h f (by simp [Item.contents, hf])
      have hnext : count + (Item.contents inner).length + (Item.contents rest).length =
          count + (Item.contents (.group j inner :: rest)).length := by
        simp only [Item.contents, Item.contentsOf, List.length_append]
        omega
      rw [hnext] at hrest
      rw [operands_group, itemsTruth?]
      simp only [itemParts, itemPart]
      cases hvalues : operands truth count inner with
      | nil =>
          rw [hvalues] at hinner
          obtain ⟨hparts, hcount⟩ := hinner.of_nil
          rw [hcount] at hrest ⊢
          simpa [hparts, joinParts, bracketed?, tokensText, String.join, sequenceTruth?] using hrest
      | cons p values =>
          obtain ⟨k, v⟩ := p
          rw [hvalues] at hinner
          have hbracketed : bracketed? (joinParts (itemParts inner)) =
              some (.opening :: (joinParts (itemParts inner) ++ [.closing])) := by
            rw [bracketed?, if_neg]
            simpa using hinner.written_joinParts
          rw [hbracketed]
          exact .cons hinner.bracketed hrest

/-- Read under precedence, the signs of items have the truth of the items. -/
theorem truth?_tokensOf (truth : Nat → Bool) (items : List (Item Fragment))
    (h : ∀ f ∈ Item.contents items, f.query ≠ "") :
    truth? truth (tokensOf items) = itemsTruth? truth 0 items := by
  have hparts := partsRead_itemParts truth 0 items h
  rw [truth?, tokensOf, itemsTruth?]
  cases hvalues : operands truth 0 items with
  | nil =>
      rw [hvalues] at hparts
      rw [hparts.of_nil.1]
      rfl
  | cons p values =>
      obtain ⟨k, v⟩ := p
      rw [hvalues] at hparts
      rw [hparts.run_joinParts]
      rfl

/-- Items render to nothing just when there is nothing in them. -/
theorem render_eq_empty_iff (truth : Nat → Bool) (items : List (Item Fragment))
    (h : ∀ f ∈ Item.contents items, f.query ≠ "") :
    render items = "" ↔ itemsTruth? truth 0 items = none := by
  have hparts := partsRead_itemParts truth 0 items h
  rw [render, tokensOf, itemsTruth?]
  cases hvalues : operands truth 0 items with
  | nil =>
      rw [hvalues] at hparts
      rw [hparts.of_nil.1]
      exact iff_of_true rfl rfl
  | cons p values =>
      rw [hvalues] at hparts
      exact iff_of_false hparts.written_joinParts (by simp [sequenceTruth?])

end Criteria.Clause
