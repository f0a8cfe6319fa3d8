import Criteria.Proofs.Precedence
import Criteria.Sql.Expression

/-!
# Formulas in statements

A formula is a row of operands that are joined by AND and OR without brackets around them.  An
operand is a test, a negation, or a formula in brackets.  Written out and read again, NOT first,
then AND, then OR, a formula has the truth of its operands.  Formulas that are written one after
the other with AND between them make one row, which is their conjunction as long as no OR stands in
the open.
-/

namespace Criteria.Sql

open Clause (Runs)

/-! ## Writing and reading -/

/-- A keyword or a bracket as it is written: with capital letters or without, and with blanks
around it. -/
structure Spelling (keyword : String) where
  before : String
  word : String
  behind : String
  isBlank : (before.toList ++ behind.toList).all Char.isWhitespace = true
  spells : word.toList.map Char.toUpper = keyword.toList

namespace Spelling

def text {keyword : String} (s : Spelling keyword) : String := s.before ++ s.word ++ s.behind

def not : Spelling "NOT" := ⟨"", "NOT", " ", rfl, rfl⟩

def opening : Spelling "(" := ⟨"", "(", "", rfl, rfl⟩

def closing : Spelling ")" := ⟨"", ")", "", rfl, rfl⟩

end Spelling

/-- A sign that joins what is in front of it and what is behind it. -/
structure Connective where
  join : Join
  sign : Spelling join.keyword

namespace Connective

def and : Connective := ⟨.and, " ", "AND", " ", rfl, rfl⟩

def or : Connective := ⟨.or, " ", "OR", " ", rfl, rfl⟩

end Connective

/-- What a formula is written with.  What a test looks like does not matter. -/
inductive Mark where
  | opening (s : Spelling "(")
  | closing (s : Spelling ")")
  | joined (c : Connective)
  | negation (s : Spelling "NOT")
  | test (pieces : List Piece)

def Mark.pieces : Mark → List Piece
  | opening s => [.text s.text]
  | closing s => [.text s.text]
  | joined c => [.text c.sign.text]
  | negation s => [.text s.text]
  | test pieces => pieces

/-- Where a reader is: in front of an operand, which is to be negated or not, or behind one.  It
keeps the runs that it is in and those around the brackets, with the negations of the brackets. -/
inductive Scan where
  | front (outer : List (Runs × Bool)) (here : Runs) (negated : Bool)
  | behind (outer : List (Runs × Bool)) (here : Runs)

namespace Scan

def step (holds : List Piece → Bool) : Scan → Mark → Option Scan
  | front outer here negated, .opening _ => some (front ((here, negated) :: outer) .start false)
  | front outer here negated, .negation _ => some (front outer here (!negated))
  | front outer here negated, .test pieces =>
    some (behind outer (here.operand (holds pieces ^^ negated)))
  | behind outer here, .joined c => some (front outer (here.after c.join) false)
  | behind ((around, negated) :: outer) here, .closing _ =>
    some (behind outer (around.operand (here.value ^^ negated)))
  | _, _ => none

def run (holds : List Piece → Bool) (s : Scan) (marks : List Mark) : Option Scan :=
  marks.foldlM (step holds) s

/-- The truth of what has been read, once every bracket is closed. -/
def verdict? : Scan → Option Bool
  | behind [] here => some here.value
  | _ => none

@[simp] theorem run_nil (holds : List Piece → Bool) (s : Scan) : s.run holds [] = some s := rfl

theorem run_cons (holds : List Piece → Bool) (s : Scan) (mark : Mark) (rest : List Mark) :
    s.run holds (mark :: rest) = (s.step holds mark).bind (·.run holds rest) := rfl

theorem run_append (holds : List Piece → Bool) (s : Scan) (marks rest : List Mark) :
    s.run holds (marks ++ rest) = (s.run holds marks).bind (·.run holds rest) :=
  List.foldlM_append

end Scan

/-- The truth of marks as SQL reads them, if they can be read, when it is known of every test
whether it holds. -/
def truthOf? (holds : List Piece → Bool) (marks : List Mark) : Option Bool :=
  ((Scan.front [] .start false).run holds marks).bind Scan.verdict?

/-! ## Formulas -/

inductive Operand where
  | test (pieces : List Piece)
  | negation (s : Spelling "NOT") (operand : Operand)
  | bracket (s : Spelling "(") (first : Operand) (rest : List (Connective × Operand))
      (t : Spelling ")")

/-- Operands in a row, each joined to those before it. -/
structure Formula where
  first : Operand
  rest : List (Connective × Operand)

mutual

def Operand.marks : Operand → List Mark
  | .test pieces => [.test pieces]
  | .negation s operand => .negation s :: operand.marks
  | .bracket s first rest t => .opening s :: (first.marks ++ joinedMarks rest ++ [.closing t])
termination_by structural operand => operand

/-- The marks of operands with their joins. -/
def joinedMarks : List (Connective × Operand) → List Mark
  | [] => []
  | (c, operand) :: rest => .joined c :: (operand.marks ++ joinedMarks rest)
termination_by structural operands => operands

end

mutual

def Operand.truth (holds : List Piece → Bool) : Operand → Bool
  | .test pieces => holds pieces
  | .negation _ operand => !operand.truth holds
  | .bracket _ first rest _ =>
    ((Runs.start.operand (first.truth holds)).extend (joinedTruth holds rest)).value
termination_by structural operand => operand

def joinedTruth (holds : List Piece → Bool) : List (Connective × Operand) → List (Join × Bool)
  | [] => []
  | (c, operand) :: rest => (c.join, operand.truth holds) :: joinedTruth holds rest
termination_by structural operands => operands

end

namespace Formula

def single (operand : Operand) : Formula := ⟨operand, []⟩

def marks (f : Formula) : List Mark := f.first.marks ++ joinedMarks f.rest

def pieces (f : Formula) : List Piece := f.marks.flatMap Mark.pieces

def truth (holds : List Piece → Bool) (f : Formula) : Bool :=
  ((Runs.start.operand (f.first.truth holds)).extend (joinedTruth holds f.rest)).value

/-- A formula with an OR that no bracket is around. -/
def HasOr (f : Formula) : Prop := ∃ p ∈ f.rest, p.1.join = .or

/-- A formula in brackets behind a NOT. -/
def negated (f : Formula) : Formula :=
  single (.negation .not (.bracket .opening f.first f.rest .closing))

/-- A formula written behind another one, with AND between them. -/
def and (f g : Formula) : Formula := ⟨f.first, f.rest ++ (.and, g.first) :: g.rest⟩

end Formula

/-! ## Reading what is written -/

theorem Runs.extend_cons (r : Runs) (p : Join × Bool) (rest : List (Join × Bool)) :
    r.extend (p :: rest) = ((r.after p.1).operand p.2).extend rest := rfl

variable (holds : List Piece → Bool)

mutual

theorem run_marks (outer : List (Runs × Bool)) (here : Runs) (negated : Bool) :
    ∀ operand : Operand, (Scan.front outer here negated).run holds operand.marks =
      some (.behind outer (here.operand (operand.truth holds ^^ negated)))
  | .test pieces => rfl
  | .negation _ operand => by
      have hinner := run_marks outer here (!negated) operand
      rw [Operand.marks, Scan.run_cons, Operand.truth, Bool.not_xor, ← Bool.xor_not]
      exact hinner
  | .bracket _ first rest _ => by
      have hfirst := run_marks ((here, negated) :: outer) .start false first
      have hrest := run_joinedMarks ((here, negated) :: outer)
        (Runs.start.operand (first.truth holds)) rest
      rw [Bool.xor_false] at hfirst
      rw [Operand.marks, Scan.run_cons, Scan.step, Option.bind_some, Scan.run_append,
        Scan.run_append, hfirst, Option.bind_some, hrest, Option.bind_some, Operand.truth]
      rfl
termination_by structural operand => operand

theorem run_joinedMarks (outer : List (Runs × Bool)) (here : Runs) :
    ∀ operands : List (Connective × Operand),
      (Scan.behind outer here).run holds (joinedMarks operands) =
        some (.behind outer (here.extend (joinedTruth holds operands)))
  | [] => rfl
  | (c, operand) :: rest => by
      have hoperand := run_marks outer (here.after c.join) false operand
      have hrest := run_joinedMarks outer ((here.after c.join).operand (operand.truth holds)) rest
      rw [Bool.xor_false] at hoperand
      rw [joinedMarks, Scan.run_cons, Scan.step, Option.bind_some, Scan.run_append, hoperand,
        Option.bind_some, hrest, joinedTruth, Runs.extend_cons]
termination_by structural operands => operands

end

/-- A formula is read as what it is. -/
theorem Formula.truthOf?_marks (f : Formula) : truthOf? holds f.marks = some (f.truth holds) := by
  have hfirst := run_marks holds [] .start false f.first
  rw [Bool.xor_false] at hfirst
  rw [truthOf?, Formula.marks, Scan.run_append, hfirst, Option.bind_some, run_joinedMarks]
  rfl

/-! ## Formulas in a row -/

theorem joinedMarks_append (operands others : List (Connective × Operand)) :
    joinedMarks (operands ++ others) = joinedMarks operands ++ joinedMarks others := by
  induction operands with
  | nil => rfl
  | cons p rest ih => rw [List.cons_append, joinedMarks, ih, joinedMarks, List.cons_append,
      List.append_assoc]

theorem joinedTruth_eq_map (operands : List (Connective × Operand)) :
    joinedTruth holds operands = operands.map fun p ↦ (p.1.join, p.2.truth holds) := by
  induction operands with
  | nil => rfl
  | cons p rest ih => rw [joinedTruth, ih, List.map_cons]

namespace Formula

theorem not_hasOr_single (operand : Operand) : ¬(single operand).HasOr := by
  rintro ⟨p, hp, -⟩
  cases hp

theorem pieces_negated (f : Formula) :
    f.negated.pieces = .text "NOT " :: .text "(" :: (f.pieces ++ [.text ")"]) := by
  have hmarks : f.negated.marks = .negation .not :: .opening .opening ::
      (f.marks ++ [.closing .closing]) := List.append_nil _
  rw [pieces, hmarks, List.flatMap_cons, List.flatMap_cons, List.flatMap_append]
  rfl

theorem marks_and (f g : Formula) : (f.and g).marks = f.marks ++ .joined .and :: g.marks := by
  have hand : (f.and g).marks =
      f.first.marks ++ joinedMarks (f.rest ++ (.and, g.first) :: g.rest) := rfl
  rw [hand, joinedMarks_append, joinedMarks, marks, marks, List.append_assoc]

theorem pieces_and (f g : Formula) :
    (f.and g).pieces = f.pieces ++ .text " AND " :: g.pieces := by
  rw [pieces, marks_and, List.flatMap_append, List.flatMap_cons]
  rfl

/-- Without an OR in the open all operands have to hold. -/
theorem truth_eq_all {f : Formula} (h : ¬f.HasOr) :
    f.truth holds = (f.first.truth holds && f.rest.all fun p ↦ p.2.truth holds) := by
  have hand : ∀ p ∈ joinedTruth holds f.rest, p.1 = .and := by
    rw [joinedTruth_eq_map, List.forall_mem_map]
    intro p hp
    cases hjoin : p.1.join with
    | and => rfl
    | or => exact absurd ⟨p, hp, hjoin⟩ h
  have hfold : ∀ (v : Bool) (operands : List (Connective × Operand)),
      (joinedTruth holds operands).foldl (fun v p ↦ Join.and.apply v p.2) v =
        (v && operands.all fun p ↦ p.2.truth holds) := by
    intro v operands
    induction operands generalizing v with
    | nil => rw [List.all_nil, Bool.and_true]; rfl
    | cons p rest ih =>
        rw [joinedTruth, List.foldl_cons, ih, List.all_cons, Join.apply, Bool.and_assoc]
  have hvalue : (Runs.start.operand (f.first.truth holds)).value = f.first.truth holds := rfl
  rw [truth, Runs.value_extend_of_join (fun _ ↦ rfl) hand, hfold, hvalue]

theorem hasOr_and_iff {f g : Formula} : (f.and g).HasOr ↔ f.HasOr ∨ g.HasOr := by
  simp [HasOr, and, Connective.and, or_and_right, exists_or]

theorem truth_and {f g : Formula} (hf : ¬f.HasOr) (hg : ¬g.HasOr) :
    (f.and g).truth holds = (f.truth holds && g.truth holds) := by
  have hboth : ¬(f.and g).HasOr := fun h ↦ (hasOr_and_iff.mp h).elim hf hg
  rw [truth_eq_all holds hboth, truth_eq_all holds hf, truth_eq_all holds hg, and,
    List.all_append, List.all_cons, Bool.and_assoc]

theorem pieces_foldl_and (f : Formula) (others : List Formula) :
    (others.foldl and f).pieces =
      f.pieces ++ others.flatMap fun g ↦ .text " AND " :: g.pieces := by
  induction others generalizing f with
  | nil => rw [List.flatMap_nil, List.append_nil]; rfl
  | cons g rest ih =>
      rw [List.foldl_cons, ih, pieces_and, List.flatMap_cons, List.append_assoc]

theorem truth_foldl_and {f : Formula} {others : List Formula} (hf : ¬f.HasOr)
    (h : ∀ g ∈ others, ¬g.HasOr) :
    (others.foldl and f).truth holds = (f.truth holds && others.all (·.truth holds)) := by
  induction others generalizing f with
  | nil => rw [List.all_nil, Bool.and_true]; rfl
  | cons g rest ih =>
      rw [List.forall_mem_cons] at h
      have hboth : ¬(f.and g).HasOr := fun hor ↦ (hasOr_and_iff.mp hor).elim hf h.1
      rw [List.foldl_cons, ih hboth h.2, truth_and holds hf h.1, List.all_cons, Bool.and_assoc]

end Formula

/-! ## Readings -/

/-- What a part of a filter is read as. -/
inductive Reading where
  | constant (b : Bool)
  | formula (f : Formula)

namespace Reading

def pieces : Reading → List Piece
  | constant b => [.text (if b then "true" else "false")]
  | formula f => f.pieces

/-- The truth of a reading, once it has been read. -/
def truth? (holds : List Piece → Bool) : Reading → Option Bool
  | constant b => some b
  | formula f => truthOf? holds f.marks

def HasOr : Reading → Prop
  | constant _ => False
  | formula f => f.HasOr

def isNever : Reading → Bool
  | constant false => true
  | _ => false

def formula? : Reading → Option Formula
  | constant _ => none
  | formula f => some f

/-- Readings one after the other, with AND between them.  One that never holds decides the whole,
and those that always hold are left out. -/
def whole (readings : List Reading) : Reading :=
  if readings.any isNever then constant false
  else match readings.filterMap formula? with
    | [] => constant true
    | f :: others => formula (others.foldl Formula.and f)

/-- At most one formula among some readings, or none with an OR in the open. -/
def IsSafe (readings : List Reading) : Prop :=
  (readings.filterMap formula?).length ≤ 1 ∨ ∀ r ∈ readings, ¬r.HasOr

theorem IsSafe.sublist {readings fewer : List Reading} (h : IsSafe readings)
    (hfewer : fewer.Sublist readings) : IsSafe fewer :=
  h.imp (fun hlength ↦ Nat.le_trans (List.Sublist.length_le (hfewer.filterMap formula?)) hlength)
    fun hor r hr ↦ hor r (hfewer.subset hr)

/-- Readings hold when none is the constant that never does and all formulas hold. -/
theorem forall_truth?_iff {readings : List Reading} :
    (∀ r ∈ readings, r.truth? holds = some true) ↔ readings.any isNever = false ∧
      ∀ f ∈ readings.filterMap formula?, f.truth holds = true := by
  induction readings with
  | nil => simp
  | cons r rest ih =>
      rw [List.forall_mem_cons, ih, List.any_cons]
      cases r with
      | constant b => cases b <;> simp [truth?, isNever, formula?]
      | formula f =>
          simp only [truth?, f.truthOf?_marks holds, isNever, formula?, List.filterMap_cons,
            List.forall_mem_cons, Option.some.injEq, Bool.false_or]
          exact and_left_comm

/-- Safe readings hold together when each of them holds. -/
theorem truth?_whole_eq_true_iff {readings : List Reading} (h : IsSafe readings) :
    (whole readings).truth? holds = some true ↔ ∀ r ∈ readings, r.truth? holds = some true := by
  rw [forall_truth?_iff, whole]
  cases hnever : readings.any isNever with
  | true => simp [truth?]
  | false =>
      have hor : ∀ f ∈ readings.filterMap formula?, (∀ r ∈ readings, ¬r.HasOr) → ¬f.HasOr := by
        intro f hf hnone
        obtain ⟨r, hr, hformula⟩ := List.mem_filterMap.mp hf
        cases r with
        | constant b => cases hformula
        | formula g =>
            obtain rfl := Option.some.inj hformula
            exact hnone _ hr
      cases hformulas : readings.filterMap formula? with
      | nil => simp [truth?]
      | cons f others =>
          have htruth : (others.foldl Formula.and f).truth holds =
              (f.truth holds && others.all (·.truth holds)) := by
            rcases h with hlength | hnone
            · rw [hformulas, List.length_cons] at hlength
              have hnone : others.length = 0 := Nat.le_zero.mp (Nat.le_of_succ_le_succ hlength)
              obtain rfl := List.length_eq_zero_iff.mp hnone
              rw [List.all_nil, Bool.and_true]
              rfl
            · have hsafe : ∀ g ∈ f :: others, ¬g.HasOr := fun g hg ↦
                hor g (hformulas ▸ hg) hnone
              rw [List.forall_mem_cons] at hsafe
              exact Formula.truth_foldl_and holds hsafe.1 hsafe.2
          simp [truth?, Formula.truthOf?_marks, htruth, List.all_eq_true]

end Reading

end Criteria.Sql
