import Criteria.Clause.Builder
import Criteria.Proofs.Places

/-!
# Precedence

A where clause is read the way SQL reads it: brackets first, and AND before OR.  The clauses in it
are atoms, numbered from the left, and a truth assignment says of every number whether the clause
with this number holds.  A reader goes once through the signs of a where clause and keeps, for every
bracket it is in, the runs of AND that it has met there.
-/

namespace Criteria.Clause

/-- The runs of AND in a sequence: whether one of the finished ones holds, and whether the one that
is being read holds so far. -/
structure Runs where
  finished : Bool
  current : Bool

namespace Runs

/-- Nothing has been read. -/
def start : Runs := ⟨false, true⟩

/-- An operand belongs to the run that is being read. -/
def operand (r : Runs) (v : Bool) : Runs := ⟨r.finished, r.current && v⟩

/-- After AND the same run goes on, and after OR another one begins. -/
def after (r : Runs) : Join → Runs
  | .and => r
  | .or => ⟨r.finished || r.current, true⟩

/-- The runs are joined by OR. -/
def value (r : Runs) : Bool := r.finished || r.current

/-- The runs after more operands, each with the join in front of it. -/
def extend (r : Runs) (operands : List (Join × Bool)) : Runs :=
  operands.foldl (fun r p ↦ (r.after p.1).operand p.2) r

end Runs

/-- Where a reader is: in front of an operand or behind one, with the runs of the brackets around,
the runs of the innermost one, and how many clauses have been read. -/
inductive Reader where
  | front (outer : List Runs) (here : Runs) (count : Nat)
  | behind (outer : List Runs) (here : Runs) (count : Nat)

namespace Reader

/-- A reader after one more sign.  An operand has to stand in front of every join and of every
closing bracket, and behind every join and every opening bracket. -/
def step (truth : Nat → Bool) : Reader → Token → Option Reader
  | front outer here count, .opening => some (front (here :: outer) .start count)
  | front outer here count, .query _ =>
    some (behind outer (here.operand (truth count)) (count + 1))
  | behind outer here count, .joined j => some (front outer (here.after j) count)
  | behind (around :: outer) here count, .closing =>
    some (behind outer (around.operand here.value) count)
  | _, _ => none

/-- A reader after some signs. -/
def run (truth : Nat → Bool) (r : Reader) (tokens : List Token) : Option Reader :=
  tokens.foldlM (step truth) r

/-- The truth of what has been read, once every bracket is closed. -/
def verdict? : Reader → Option Bool
  | behind [] here _ => some here.value
  | _ => none

@[simp] theorem run_nil (truth : Nat → Bool) (r : Reader) : r.run truth [] = some r := rfl

theorem run_cons (truth : Nat → Bool) (r : Reader) (token : Token) (rest : List Token) :
    r.run truth (token :: rest) = (r.step truth token).bind (·.run truth rest) := rfl

theorem run_append (truth : Nat → Bool) (r : Reader) (tokens rest : List Token) :
    r.run truth (tokens ++ rest) = (r.run truth tokens).bind (·.run truth rest) :=
  List.foldlM_append

end Reader

/-- The truth of a where clause under a truth assignment, if it can be read.  There is nothing to
read in an empty one. -/
def truth? (truth : Nat → Bool) (tokens : List Token) : Option Bool :=
  ((Reader.front [] .start 0).run truth tokens).bind Reader.verdict?

/-- AND comes before OR, and brackets come before both. -/
example : truth? (· != 1) [.query "a", .joined .or, .query "b", .joined .and, .query "c"] =
    some true ∧ truth? (· == 0) [.opening, .query "a", .joined .or, .query "b", .closing,
      .joined .and, .query "c"] = some false := by
  decide

/-! ## The truth of items -/

/-- The truth of operands in a row.  The join of the first one says nothing. -/
def sequenceTruth? : List (Join × Bool) → Option Bool
  | [] => none
  | (_, v) :: rest => some ((Runs.start.operand v).extend rest).value

/-- Operands that are all joined in one way are folded by that join, for nothing is finished before
the first OR. -/
theorem Runs.value_extend_of_join {j : Join} {r : Runs} (hr : j = .and → r.finished = false)
    {operands : List (Join × Bool)} (h : ∀ p ∈ operands, p.1 = j) :
    (r.extend operands).value = operands.foldl (fun v p ↦ j.apply v p.2) r.value := by
  induction operands generalizing r with
  | nil => rfl
  | cons p rest ih =>
      obtain ⟨k, v⟩ := p
      obtain rfl : k = j := h (k, v) List.mem_cons_self
      have hstep : ((r.after k).operand v).value = k.apply r.value v := by
        cases k with
        | and => simp [Runs.after, Runs.operand, Runs.value, Join.apply, hr rfl]
        | or => simp [Runs.after, Runs.operand, Runs.value, Join.apply]
      have hfinished : k = .and → ((r.after k).operand v).finished = false := by
        rintro rfl
        exact hr rfl
      have hrest := ih hfinished fun p hp ↦ h p (List.mem_cons_of_mem _ hp)
      rw [hstep] at hrest
      exact hrest

variable {α β : Type}

mutual

/-- The truth of an item whose clauses are numbered from `count` on, unless there is nothing in
it. -/
def itemTruth? (truth : Nat → Bool) (count : Nat) : Item α → Option Bool
  | .clause _ _ => some (truth count)
  | .group _ items => sequenceTruth? (operands truth count items)
termination_by structural item => item

/-- The operands that items whose clauses are numbered from `count` on contribute to a sequence. -/
def operands (truth : Nat → Bool) (count : Nat) : List (Item α) → List (Join × Bool)
  | [] => []
  | item :: rest =>
    match itemTruth? truth count item with
    | some v => (item.join, v) :: operands truth (count + (Item.contentsOf item).length) rest
    | none => operands truth (count + (Item.contentsOf item).length) rest
termination_by structural items => items

end

/-- The truth of a sequence of items, unless there is nothing in it. -/
def itemsTruth? (truth : Nat → Bool) (count : Nat) (items : List (Item α)) : Option Bool :=
  sequenceTruth? (operands truth count items)

theorem operands_clause (truth : Nat → Bool) (count : Nat) (j : Join) (content : α)
    (rest : List (Item α)) :
    operands truth count (.clause j content :: rest) =
      (j, truth count) :: operands truth (count + 1) rest := rfl

theorem operands_group (truth : Nat → Bool) (count : Nat) (j : Join)
    (inner rest : List (Item α)) :
    operands truth count (.group j inner :: rest) =
      ((itemsTruth? truth count inner).map fun v ↦ (j, v)).toList ++
        operands truth (count + (Item.contents inner).length) rest := by
  simp only [operands, itemTruth?, itemsTruth?, Item.contentsOf]
  cases sequenceTruth? (operands truth count inner) <;> rfl

theorem operands_append (truth : Nat → Bool) (count : Nat) (items others : List (Item α)) :
    operands truth count (items ++ others) = operands truth count items ++
      operands truth (count + (Item.contents items).length) others := by
  induction items generalizing count with
  | nil => rfl
  | cons item rest ih =>
      simp only [List.cons_append, operands, ih, Item.contents, List.length_append, Nat.add_assoc]
      cases itemTruth? truth count item <;> rfl

/-- A truth assignment for the clauses after the first ones. -/
def truthAfter (count : Nat) (truth : Nat → Bool) : Nat → Bool := fun i ↦ truth (count + i)

theorem operands_truthAfter (truth : Nat → Bool) (start count : Nat) (items : List (Item α)) :
    operands (truthAfter start truth) count items = operands truth (start + count) items := by
  induction items using Item.sequence_induction generalizing count with
  | nil => rfl
  | clause j content rest ih =>
      rw [operands_clause, operands_clause, ih, truthAfter, Nat.add_assoc]
  | group j inner rest ihInner ih =>
      rw [operands_group, operands_group, itemsTruth?, itemsTruth?, ihInner, ih, Nat.add_assoc]

theorem exists_join_of_mem_operands {truth : Nat → Bool} {count : Nat} {items : List (Item α)}
    {p : Join × Bool} (h : p ∈ operands truth count items) : ∃ item ∈ items, item.join = p.1 := by
  induction items generalizing count with
  | nil => simp [operands] at h
  | cons item rest ih =>
      rw [operands] at h
      cases hitem : itemTruth? truth count item with
      | none =>
          simp only [hitem] at h
          obtain ⟨other, hother, hjoin⟩ := ih h
          exact ⟨other, List.mem_cons_of_mem item hother, hjoin⟩
      | some v =>
          simp only [hitem, List.mem_cons] at h
          rcases h with rfl | h
          · exact ⟨item, List.mem_cons_self, rfl⟩
          · obtain ⟨other, hother, hjoin⟩ := ih h
            exact ⟨other, List.mem_cons_of_mem item hother, hjoin⟩

/-- The truth of items depends on their joins and their nesting alone. -/
theorem operands_relabel (f : α → β) (truth : Nat → Bool) (count : Nat) (items : List (Item α)) :
    operands truth count (Item.relabel f items) = operands truth count items := by
  induction items using Item.sequence_induction generalizing count with
  | nil => rfl
  | clause j content rest ih =>
      simp only [Item.relabel, Item.relabelOf, operands_clause, ih]
  | group j inner rest ihInner ih =>
      simp only [Item.relabel, Item.relabelOf, operands_group, itemsTruth?, ihInner, ih,
        Item.contents_relabel, List.length_map]

theorem itemsTruth?_eq_of_relabel_eq {γ : Type} {f : α → γ} {g : β → γ} {items : List (Item α)}
    {others : List (Item β)} (h : Item.relabel f items = Item.relabel g others)
    (truth : Nat → Bool) (count : Nat) :
    itemsTruth? truth count items = itemsTruth? truth count others := by
  rw [itemsTruth?, itemsTruth?, ← operands_relabel f, h, operands_relabel]

end Criteria.Clause
