import Criteria.Proofs.Precedence
import Criteria.Sql.WhereClause

/-!
# The truth of logical expressions

AND holds when all of its parts do, and OR when some part does.  The atoms of an expression are
numbered from the left, as the clauses of a where clause are.  The expression that a sequence of
items makes has the truth of the items: the runs of AND are the same ones that a reader meets, and
junctions of one kind may be merged without a change of truth.
-/

namespace Criteria.Sql.Expression

open Clause (Item Runs itemsTruth? operands sequenceTruth?)

variable {α : Type}

mutual

/-- The atoms of an expression, from the left. -/
def atoms : Expression α → List α
  | atom a => [a]
  | always => []
  | never => []
  | all parts => atomsOf parts
  | any parts => atomsOf parts
termination_by structural e => e

/-- The atoms of some expressions. -/
def atomsOf : List (Expression α) → List α
  | [] => []
  | e :: rest => atoms e ++ atomsOf rest
termination_by structural es => es

end

mutual

/-- Whether an expression holds whose atoms are numbered from `count` on. -/
def holds (truth : Nat → Bool) (count : Nat) : Expression α → Bool
  | atom _ => truth count
  | always => true
  | never => false
  | all parts => allHold truth count parts
  | any parts => anyHolds truth count parts
termination_by structural e => e

/-- Whether all of some expressions hold. -/
def allHold (truth : Nat → Bool) (count : Nat) : List (Expression α) → Bool
  | [] => true
  | e :: rest => holds truth count e && allHold truth (count + (atoms e).length) rest
termination_by structural es => es

/-- Whether one of some expressions holds. -/
def anyHolds (truth : Nat → Bool) (count : Nat) : List (Expression α) → Bool
  | [] => false
  | e :: rest => holds truth count e || anyHolds truth (count + (atoms e).length) rest
termination_by structural es => es

end

/-! ## Junctions -/

theorem atomsOf_append (es fs : List (Expression α)) :
    atomsOf (es ++ fs) = atomsOf es ++ atomsOf fs := by
  induction es with
  | nil => rfl
  | cons e es ih => simp only [List.cons_append, atomsOf, ih, List.append_assoc]

theorem allHold_append (truth : Nat → Bool) (count : Nat) (es fs : List (Expression α)) :
    allHold truth count (es ++ fs) =
      (allHold truth count es && allHold truth (count + (atomsOf es).length) fs) := by
  induction es generalizing count with
  | nil => simp [allHold, atomsOf]
  | cons e es ih =>
      simp only [List.cons_append, allHold, atomsOf, ih, Bool.and_assoc, List.length_append,
        Nat.add_assoc]

theorem anyHolds_append (truth : Nat → Bool) (count : Nat) (es fs : List (Expression α)) :
    anyHolds truth count (es ++ fs) =
      (anyHolds truth count es || anyHolds truth (count + (atomsOf es).length) fs) := by
  induction es generalizing count with
  | nil => simp [anyHolds, atomsOf]
  | cons e es ih =>
      simp only [List.cons_append, anyHolds, atomsOf, ih, Bool.or_assoc, List.length_append,
        Nat.add_assoc]

theorem atomsOf_conjuncts (e : Expression α) : atomsOf (conjuncts e) = atoms e := by
  cases e <;> simp [conjuncts, atomsOf, atoms]

theorem atomsOf_disjuncts (e : Expression α) : atomsOf (disjuncts e) = atoms e := by
  cases e <;> simp [disjuncts, atomsOf, atoms]

theorem allHold_conjuncts (truth : Nat → Bool) (count : Nat) (e : Expression α) :
    allHold truth count (conjuncts e) = holds truth count e := by
  cases e with
  | all parts => rfl
  | _ => simp [conjuncts, allHold]

theorem anyHolds_disjuncts (truth : Nat → Bool) (count : Nat) (e : Expression α) :
    anyHolds truth count (disjuncts e) = holds truth count e := by
  cases e with
  | any parts => rfl
  | _ => simp [disjuncts, anyHolds]

theorem atomsOf_flatMap {f : Expression α → List (Expression α)}
    (hf : ∀ e, atomsOf (f e) = atoms e) (es : List (Expression α)) :
    atomsOf (es.flatMap f) = atomsOf es := by
  induction es with
  | nil => rfl
  | cons e es ih => rw [List.flatMap_cons, atomsOf_append, hf, ih, atomsOf]

theorem allHold_flatMap_conjuncts (truth : Nat → Bool) (count : Nat) (es : List (Expression α)) :
    allHold truth count (es.flatMap conjuncts) = allHold truth count es := by
  induction es generalizing count with
  | nil => rfl
  | cons e es ih =>
      rw [List.flatMap_cons, allHold_append, allHold_conjuncts, atomsOf_conjuncts, ih, allHold]

theorem anyHolds_flatMap_disjuncts (truth : Nat → Bool) (count : Nat)
    (es : List (Expression α)) :
    anyHolds truth count (es.flatMap disjuncts) = anyHolds truth count es := by
  induction es generalizing count with
  | nil => rfl
  | cons e es ih =>
      rw [List.flatMap_cons, anyHolds_append, anyHolds_disjuncts, atomsOf_disjuncts, ih,
        anyHolds]

theorem holds_conjunction (truth : Nat → Bool) (count : Nat) (es : List (Expression α)) :
    holds truth count (conjunction es) = allHold truth count es := by
  match es with
  | [] => rfl
  | [e] => simp [conjunction, allHold]
  | e :: f :: es => exact allHold_flatMap_conjuncts truth count (e :: f :: es)

theorem holds_disjunction (truth : Nat → Bool) (count : Nat) (es : List (Expression α)) :
    holds truth count (disjunction es) = anyHolds truth count es := by
  match es with
  | [] => rfl
  | [e] => simp [disjunction, anyHolds]
  | e :: f :: es => exact anyHolds_flatMap_disjuncts truth count (e :: f :: es)

theorem atoms_conjunction (es : List (Expression α)) : atoms (conjunction es) = atomsOf es := by
  match es with
  | [] => rfl
  | [e] => simp [conjunction, atomsOf]
  | e :: f :: es => exact atomsOf_flatMap atomsOf_conjuncts (e :: f :: es)

theorem atoms_disjunction (es : List (Expression α)) : atoms (disjunction es) = atomsOf es := by
  match es with
  | [] => rfl
  | [e] => simp [disjunction, atomsOf]
  | e :: f :: es => exact atomsOf_flatMap atomsOf_disjuncts (e :: f :: es)

/-! ## Runs -/

/-- The truths of parts in a row, with their joins. -/
def truths (truth : Nat → Bool) (count : Nat) : List (Join × Expression α) → List (Join × Bool)
  | [] => []
  | (j, e) :: rest => (j, holds truth count e) :: truths truth (count + (atoms e).length) rest

theorem truths_append (truth : Nat → Bool) (count : Nat)
    (parts others : List (Join × Expression α)) :
    truths truth count (parts ++ others) = truths truth count parts ++
      truths truth (count + (atomsOf (parts.map (·.2))).length) others := by
  induction parts generalizing count with
  | nil => simp [truths, atomsOf]
  | cons part parts ih =>
      simp only [List.cons_append, truths, ih, List.map_cons, atomsOf, List.length_append,
        Nat.add_assoc]

/-- The first run begins with the first part, and the atoms of the runs are those of the parts. -/
theorem runs_cons (j : Join) (e : Expression α) (rest : List (Join × Expression α)) :
    ∃ run others, runs ((j, e) :: rest) = (e :: run) :: others := by
  match rest with
  | [] => exact ⟨[], [], rfl⟩
  | (.or, f) :: rest =>
      exact ⟨[], runs ((.or, f) :: rest), rfl⟩
  | (.and, f) :: rest =>
      obtain ⟨run, others, hruns⟩ := runs_cons .and f rest
      refine ⟨f :: run, others, ?_⟩
      simp [runs, hruns]

theorem runs_and {e f : Expression α} {j : Join} {rest : List (Join × Expression α)}
    {run : List (Expression α)} {others : List (List (Expression α))}
    (h : runs ((.and, f) :: rest) = run :: others) :
    runs ((j, e) :: (.and, f) :: rest) = (e :: run) :: others := by
  simp [runs, h]

theorem runs_or (e f : Expression α) (j : Join) (rest : List (Join × Expression α)) :
    runs ((j, e) :: (.or, f) :: rest) = [e] :: runs ((.or, f) :: rest) := rfl

theorem atomsOf_runs (parts : List (Join × Expression α)) :
    atomsOf ((runs parts).map conjunction) = atomsOf (parts.map (·.2)) := by
  match parts with
  | [] => rfl
  | [(j, e)] => rfl
  | (j, e) :: (.or, f) :: rest =>
      have ih := atomsOf_runs ((.or, f) :: rest)
      rw [runs_or, List.map_cons, atomsOf, ih]
      rfl
  | (j, e) :: (.and, f) :: rest =>
      have ih := atomsOf_runs ((.and, f) :: rest)
      obtain ⟨run, others, hruns⟩ := runs_cons .and f rest
      rw [hruns] at ih
      rw [runs_and hruns]
      simp only [List.map_cons, atomsOf, atoms_conjunction] at ih ⊢
      rw [← ih, List.append_assoc]

/-- A reader that goes on over parts with the runs `r` behind it comes to the OR of the finished
runs, of the current one together with what the parts add to it, and of the runs after it. -/
theorem value_extend_truths (truth : Nat → Bool) (count : Nat) (r : Runs) (j : Join)
    (e : Expression α) (rest : List (Join × Expression α)) {run : List (Expression α)}
    {others : List (List (Expression α))} (h : runs ((j, e) :: rest) = (e :: run) :: others) :
    ((r.operand (holds truth count e)).extend
        (truths truth (count + (atoms e).length) rest)).value =
      (r.finished || (r.current && allHold truth count (e :: run)) ||
        anyHolds truth (count + (atomsOf (e :: run)).length) (others.map conjunction)) := by
  match rest with
  | [] =>
      obtain ⟨rfl, rfl⟩ : run = [] ∧ others = [] := by simpa [runs, eq_comm] using h
      simp [truths, Runs.extend, Runs.operand, Runs.value, allHold, anyHolds]
  | (.or, f) :: rest =>
      rw [runs_or] at h
      obtain ⟨rfl, hothers⟩ : run = [] ∧ runs ((.or, f) :: rest) = others := by
        simpa [eq_comm] using h
      obtain ⟨next, more, hruns⟩ := runs_cons .or f rest
      have ih := value_extend_truths truth (count + (atoms e).length)
        ((r.operand (holds truth count e)).after .or) .or f rest hruns
      rw [truths, Runs.extend, List.foldl_cons]
      rw [Runs.extend] at ih
      rw [ih, ← hothers, hruns, List.map_cons, anyHolds, holds_conjunction, atoms_conjunction]
      simp only [Runs.after, Runs.operand, allHold, atomsOf, List.append_nil, Bool.true_and,
        Bool.and_true, Bool.or_assoc]
  | (.and, f) :: rest =>
      obtain ⟨next, more, hruns⟩ := runs_cons .and f rest
      rw [runs_and hruns] at h
      obtain ⟨rfl, rfl⟩ : f :: next = run ∧ more = others := by simpa using h
      have ih := value_extend_truths truth (count + (atoms e).length)
        ((r.operand (holds truth count e)).after .and) .and f rest hruns
      rw [truths, Runs.extend, List.foldl_cons]
      rw [Runs.extend] at ih
      rw [ih]
      simp only [Runs.after, Runs.operand, allHold, atomsOf, Bool.and_assoc, List.length_append,
        Nat.add_assoc]

/-- The expression of parts in a row has the truth of the sequence. -/
theorem holds_ofParts? (truth : Nat → Bool) (count : Nat) (parts : List (Join × Expression α)) :
    (ofParts? parts).map (holds truth count) = sequenceTruth? (truths truth count parts) := by
  match parts with
  | [] => rfl
  | (j, e) :: rest =>
      obtain ⟨run, others, hruns⟩ := runs_cons j e rest
      have hvalue := value_extend_truths truth count .start j e rest hruns
      simp only [truths, sequenceTruth?, hvalue]
      simp [ofParts?, hruns, holds_disjunction, anyHolds, holds_conjunction, atoms_conjunction,
        Runs.start]

/-! ## Items -/

/-- The parts that items make have the truths of the operands that the items contribute, and the
contents of the clauses as atoms. -/
theorem truths_partsOf (truth : Nat → Bool) (count : Nat) (items : List (Item α)) :
    truths truth count (partsOf items) = operands truth count items ∧
      atomsOf ((partsOf items).map (·.2)) = Item.contents items := by
  induction items using Item.sequence_induction generalizing count with
  | nil => exact ⟨rfl, rfl⟩
  | clause j content rest ih =>
      obtain ⟨hrest, hatoms⟩ := ih (count + 1)
      constructor
      · rw [Clause.operands_clause, ← hrest]
        rfl
      · have hparts : partsOf (.clause j content :: rest) = (j, atom content) :: partsOf rest := rfl
        simp only [hparts, List.map_cons, atomsOf, atoms, hatoms, Item.contents, Item.contentsOf]
  | group j inner rest ihInner ih =>
      obtain ⟨hinner, hinnerAtoms⟩ := ihInner count
      obtain ⟨hrest, hatoms⟩ := ih (count + (Item.contents inner).length)
      have hparts : partsOf (.group j inner :: rest) =
          ((ofParts? (partsOf inner)).map fun e ↦ (j, e)).toList ++ partsOf rest := by
        simp only [partsOf, ofItem?]
        cases ofParts? (partsOf inner) <;> rfl
      have htruth : (ofParts? (partsOf inner)).map (holds truth count) =
          itemsTruth? truth count inner := by
        rw [holds_ofParts?, hinner, itemsTruth?]
      have hgroup : atomsOf (((ofParts? (partsOf inner)).map fun e ↦ (j, e)).toList.map (·.2)) =
          Item.contents inner := by
        rw [← hinnerAtoms]
        cases hempty : partsOf inner with
        | nil => rfl
        | cons part parts =>
            simp [ofParts?, atomsOf, atoms_disjunction, atomsOf_runs]
      rw [hparts, Clause.operands_group, ← htruth]
      constructor
      · rw [truths_append, hgroup, hrest]
        cases ofParts? (partsOf inner) <;> rfl
      · rw [List.map_append, atomsOf_append, hgroup, hatoms]
        rfl

/-- The expression of items has the truth of the items, and there is none when there is nothing in
them. -/
theorem holds_ofItems? (truth : Nat → Bool) (count : Nat) (items : List (Item α)) :
    (ofItems? items).map (holds truth count) = itemsTruth? truth count items := by
  rw [ofItems?, holds_ofParts?, (truths_partsOf truth count items).1, itemsTruth?]

theorem atoms_ofItems? (items : List (Item α)) :
    ((ofItems? items).map atoms).getD [] = Item.contents items := by
  rw [← (truths_partsOf (fun _ ↦ true) 0 items).2, ofItems?, ofParts?]
  cases partsOf items with
  | nil => rfl
  | cons part parts =>
      simp [atoms_disjunction, atomsOf_runs]

end Criteria.Sql.Expression

namespace Criteria.Sql.WhereClause

open Clause (Item Path itemsTruth?)

/-- The texts in the expression of the group at a path, from the left. -/
def atoms (path : Path) (w : WhereClause) : List BoundText :=
  ((w.build? path).map Expression.atoms).getD []

theorem atoms_eq_contents (path : Path) (w : WhereClause) :
    w.atoms path = Item.contents (Item.itemsAt path w.items) :=
  Expression.atoms_ofItems? (Item.itemsAt path w.items)

theorem holds_build? (truth : Nat → Bool) (path : Path) (w : WhereClause) :
    (w.build? path).map (Expression.holds truth 0) =
      itemsTruth? truth 0 (Item.itemsAt path w.items) :=
  Expression.holds_ofItems? truth 0 (Item.itemsAt path w.items)

end Criteria.Sql.WhereClause
