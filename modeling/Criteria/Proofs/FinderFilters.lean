import Mathlib.Data.List.Forall2
import Criteria.Proofs.BracketedTexts
import Criteria.Proofs.Formulas
import Criteria.Proofs.Fragments
import Criteria.Proofs.Negation
import Criteria.Proofs.Statements
import Criteria.Sql.FindFilter

/-!
# Entries of a finder

Every entry of a filter makes a part of it, and the parts that are no constants are written in a
row with AND between them.  A test is a single operand and a text that is negated stands in
brackets, but a text that is not negated is written as it is.  So a filter is the conjunction of
its entries unless such a text has an OR in the open and another part beside it.
-/

namespace Criteria.Sql

/-! ## Parameters of a statement -/

/-- The parameters that pieces have when they are written as a statement. -/
def parametersOf (pieces : List Piece) : List Parameter :=
  (Part.ofPieces [] pieces).filterMap Part.parameter?

/-- Pieces with one value for each name. -/
def HasOneValueEach (pieces : List Piece) : Prop :=
  ∀ p ∈ parametersOf pieces, ∀ q ∈ parametersOf pieces, p.name = q.name →
    p.bind.value = q.bind.value

/-- A statement gives every parameter its own value, unless a name has two. -/
theorem Statement.get?_params {pieces : List Piece} {st : Statement} (h : ofPieces pieces = .ok st)
    (hvalues : HasOneValueEach pieces) {p : Parameter} (hp : p ∈ parametersOf pieces) :
    st.params.get? p.name = some p.bind.value := by
  have hparams : st.params =
      Parameters.ofPairs ((parametersOf pieces).map fun q ↦ (q.name, q.bind.value)) := by
    simp only [ofPieces] at h
    split at h
    · cases h
    · rw [Parameters.ofPairs, List.foldl_map, ← Except.ok.inj h, parametersOf]
  have hmem : p.bind.value ∈ Parameters.valuesOf p.name
      ((parametersOf pieces).map fun q ↦ (q.name, q.bind.value)) :=
    List.mem_filterMap.mpr ⟨_, List.mem_map_of_mem hp, if_pos rfl⟩
  have hall : ∀ v ∈ Parameters.valuesOf p.name
      ((parametersOf pieces).map fun q ↦ (q.name, q.bind.value)), v = p.bind.value := by
    intro v hv
    obtain ⟨_, hentry, hvalue⟩ := List.mem_filterMap.mp hv
    obtain ⟨q, hq, rfl⟩ := List.mem_map.mp hentry
    obtain ⟨hname, hvalue⟩ := Option.ite_none_right_eq_some.mp hvalue
    rw [← Option.some.inj hvalue]
    exact hvalues q hq p hp hname
  have hne := List.ne_nil_of_mem hmem
  rw [hparams, Parameters.get?_ofPairs, List.getLast?_eq_some_getLast hne,
    hall _ (List.getLast_mem hne)]

/-! ## Entries and their readings -/

/-- An operator, on what its field stands for, that a requirement comes to. -/
structure IsEntryOf (compiler : Registry) (table : Table) (requirement : Value × Requirement)
    (entry : Selection × FindOperator) : Prop where
  select : table.select requirement.1 = .ok entry.1
  compiled : ∃ ids ids', requirement.2.compiled compiler requirement.1 ids = .ok entry.2 ids'

/-- What an entry is read as, on its own.  A text is read as any formula that spells it, and a text
that is negated as the negation of that formula. -/
inductive IsReadAs (kinds : List FindKind) (entry : Selection × FindOperator) : Reading → Prop
  | constant {b : Bool} (h : entry.1.part kinds entry.2 = .ok (Selection.constant b)) :
      IsReadAs kinds entry (.constant b)
  | test {t : Test} (h : entry.1.part kinds entry.2 = .ok (.atom (.test t))) :
      IsReadAs kinds entry (.formula (.single (.test t.pieces)))
  | negation {b : Bool} (h : entry.1.part kinds entry.2 = .ok (.atom (.negation b))) :
      IsReadAs kinds entry
        (.formula (.single (.negation .not (.test [.unnamed unnamedBase true ⟨.bool b, false⟩]))))
  | text {t : BoundText} {f : Formula} (hraw : ¬entry.2.IsNative)
      (h : entry.1.part kinds entry.2.core = .ok (.atom (.text t)))
      (hwritten : t.pieces.any Piece.isWritten = true) (hspelt : SameText t.pieces f.pieces) :
      IsReadAs kinds entry (.formula (if entry.2.negations % 2 = 1 then f.negated else f))

/-- A part that is written as it is read. -/
inductive IsWrittenAs : Expression Atom → Reading → Prop
  | constant (b : Bool) : IsWrittenAs (Selection.constant b) (.constant b)
  | atom {a : Atom} {f : Formula} (hwritten : a.pieces.any Piece.isWritten = true)
      (h : SameText a.pieces f.pieces) : IsWrittenAs (.atom a) (.formula f)

theorem Test.any_isWritten_pieces (t : Test) : t.pieces.any Piece.isWritten = true := by
  rw [pieces]
  cases t.check with
  | isConstant b => cases b <;> simp [Piece.isWritten, String.append_eq_empty_iff, toString]
  | isNull => cases t.negated <;> simp [Piece.isWritten, String.append_eq_empty_iff]
  | isIn values =>
      cases t.negated <;> simp [Piece.isWritten, membershipPieces, Expression.bracketed]
  | _ => simp [Piece.isWritten, parameter]

namespace Selection

variable {kinds : List FindKind} {s : Selection}

theorem part_not_not (op : FindOperator) : s.part kinds (.not (.not op)) = s.part kinds op := by
  cases s with
  | one column => rw [part, Atom.ofOperator, part]
  | several columns => rw [part, ofSeveral, part]

theorem part_eq (op : FindOperator) : s.part kinds op =
    s.part kinds (if op.negations % 2 = 1 then .not op.core else op.core) :=
  FindOperator.eq_of_cancel (f := fun op ↦ s.part kinds op) part_not_not op

end Selection

theorem Atom.ofRaw_not {name : String} {op : FindOperator} {parameters : Parameters}
    {t : BoundText} (h : ofRaw name false op parameters = .ok (.text t)) : ∃ t',
      ofRaw name true op parameters = .ok (.text t') ∧
      SameText t'.pieces (.text "NOT (" :: (t.pieces ++ [.text ")"])) := by
  rw [ofRaw] at h ⊢
  cases hrender : op.render name with
  | error fault => simp [hrender] at h
  | ok rendered =>
      cases htext : BoundText.ofTemplate rendered parameters with
      | error fault => simp [hrender, htext] at h
      | ok text =>
          obtain ⟨t', ht', hsame⟩ := BoundText.ofTemplate_bracketedNot htext
          simp only [hrender, htext, Bool.false_eq_true, if_false, Except.ok.injEq,
            Atom.text.injEq] at h
          subst h
          rw [bracketedNot] at ht'
          exact ⟨t', by simp [ht'], hsame⟩

/-- The negation of a text is read as the negation of what the text is read as. -/
theorem Selection.part_not_text {kinds : List FindKind} {s : Selection} {op : FindOperator}
    (hraw : op.kind = .raw) {t : BoundText} (h : s.part kinds op = .ok (.atom (.text t))) :
    ∃ t', s.part kinds (.not op) = .ok (.atom (.text t')) ∧
      SameText t'.pieces (.text "NOT (" :: (t.pieces ++ [.text ")"])) := by
  cases op with
  | raw value template parameters origin =>
      have hofRaw : ∀ {name : String} {negated : Bool} {a : Atom},
          (Atom.ofRaw name negated (.raw value template parameters origin) parameters).map
            Expression.atom = .ok (.atom a) ↔
          Atom.ofRaw name negated (.raw value template parameters origin) parameters = .ok a := by
        intro name negated a
        cases Atom.ofRaw name negated _ parameters <;> simp [Except.map]
      cases s with
      | one column =>
          rw [part, Atom.ofOperator, hofRaw] at h
          obtain ⟨t', ht', hsame⟩ := Atom.ofRaw_not h
          refine ⟨t', ?_, hsame⟩
          rw [part, Atom.ofOperator, hofRaw, ht']
      | several columns =>
          rw [part, ofSeveral, hofRaw] at h
          obtain ⟨t', ht', hsame⟩ := Atom.ofRaw_not h
          refine ⟨t', ?_, hsame⟩
          rw [part, ofSeveral, hofRaw, ht']
  | _ => cases hraw

theorem IsReadAs.exists_isWrittenAs {kinds : List FindKind} {entry : Selection × FindOperator}
    {r : Reading} (h : IsReadAs kinds entry r) :
    ∃ part, entry.1.part kinds entry.2 = .ok part ∧ IsWrittenAs part r := by
  cases h with
  | constant h => exact ⟨_, h, .constant _⟩
  | @test t h =>
      have hpieces : (Formula.single (.test t.pieces)).pieces = t.pieces := List.append_nil _
      have hsame : SameText t.pieces (Formula.single (.test t.pieces)).pieces := by
        rw [SameText, hpieces]
      exact ⟨_, h, .atom t.any_isWritten_pieces hsame⟩
  | negation h => exact ⟨_, h, .atom rfl rfl⟩
  | @text t f hraw h hwritten hspelt =>
      have hpart : entry.1.part kinds entry.2 = entry.1.part kinds _ := Selection.part_eq entry.2
      by_cases hodd : entry.2.negations % 2 = 1
      · obtain ⟨t', ht', hsame⟩ := Selection.part_not_text (not_not.mp hraw) h
        have hlead : SameText [.text "NOT ("] [.text "NOT ", .text "("] := rfl
        have hneg : SameText t'.pieces f.negated.pieces :=
          hsame.trans ((hlead.append (hspelt.append (.refl [.text ")"]))).trans
            (f.pieces_negated ▸ .refl _))
        have hwritten' : t'.pieces.any Piece.isWritten = true := by
          refine SameText.isWritten hneg.symm ?_
          rw [Formula.pieces_negated]
          rfl
        rw [if_pos hodd] at hpart ⊢
        exact ⟨_, hpart.trans ht', .atom hwritten' hneg⟩
      · rw [if_neg hodd] at hpart ⊢
        exact ⟨_, hpart.trans h, .atom hwritten hspelt⟩

/-- Only a text that is not negated is read as a formula with an OR in the open. -/
theorem IsReadAs.of_hasOr {kinds : List FindKind} {entry : Selection × FindOperator}
    {r : Reading} (h : IsReadAs kinds entry r) (hor : r.HasOr) :
    ¬entry.2.IsNative ∧ entry.2.negations % 2 = 0 := by
  cases h with
  | constant h => exact hor.elim
  | test h => exact absurd hor (Formula.not_hasOr_single _)
  | negation h => exact absurd hor (Formula.not_hasOr_single _)
  | @text t f hraw h hwritten hspelt =>
      by_cases hodd : entry.2.negations % 2 = 1
      · rw [if_pos hodd] at hor
        exact absurd hor (Formula.not_hasOr_single _)
      · exact ⟨hraw, by omega⟩

/-- A part of a filter that is a test or a truth value, negated or not. -/
def IsTextless : Expression Atom → Prop
  | .always | .never | .atom (.test _) | .atom (.negation _) => True
  | _ => False

theorem isTextless_constant (b : Bool) : IsTextless (Selection.constant b) := by
  cases b <;> trivial

theorem isTextless_of_negations_eq_zero {kinds : List FindKind} {s : Selection}
    {op : FindOperator} (hnative : op.IsNative) (hnone : op.negations = 0)
    (part : Expression Atom) : (s.part kinds op = .ok part → IsTextless part) ∧
      (s.part kinds (.not op) = .ok part → IsTextless part) := by
  cases op with
  | not op => cases hnone
  | raw value template parameters origin => exact absurd rfl hnative
  | _ =>
      cases s with
      | one column =>
          simp only [Selection.part, Atom.ofOperator]
          split
          · cases Check.ofOperator _ with
            | error fault => constructor <;> rintro ⟨⟩
            | ok check => constructor <;> rintro ⟨⟩ <;> trivial
          · constructor <;> rintro ⟨⟩
      | several columns =>
          simp only [Selection.part, Selection.ofSeveral]
          cases Selection.outcome kinds columns _ with
          | error fault => constructor <;> rintro ⟨⟩
          | ok b =>
              constructor
              · rintro ⟨⟩
                exact isTextless_constant b
              · rintro ⟨⟩
                trivial

theorem isTextless_part {kinds : List FindKind} {s : Selection} {op : FindOperator}
    (hnative : op.IsNative) {part : Expression Atom} (h : s.part kinds op = .ok part) :
    IsTextless part := by
  rw [Selection.part_eq] at h
  split at h
  · exact (isTextless_of_negations_eq_zero hnative.core op.negations_core part).2 h
  · exact (isTextless_of_negations_eq_zero hnative.core op.negations_core part).1 h

/-- An entry without a text always has a reading. -/
theorem exists_isReadAs {kinds : List FindKind} {entry : Selection × FindOperator}
    (hnative : entry.2.IsNative) {part : Expression Atom}
    (h : entry.1.part kinds entry.2 = .ok part) : ∃ r, IsReadAs kinds entry r := by
  have htextless := isTextless_part hnative h
  cases part with
  | always => exact ⟨_, .constant (b := true) h⟩
  | never => exact ⟨_, .constant (b := false) h⟩
  | atom a =>
      cases a with
      | text t => exact htextless.elim
      | test t => exact ⟨_, .test h⟩
      | negation b => exact ⟨_, .negation h⟩
  | _ => exact htextless.elim

/-! ## Parts in a row -/

theorem IsWrittenAs.statement_eq {part : Expression Atom} {r : Reading} (h : IsWrittenAs part r) :
    part.statement = Statement.ofPieces r.pieces := by
  cases h with
  | constant b => cases b <;> rfl
  | atom hwritten h => exact h.ofPieces_eq

theorem any_isNever_eq {parts : List (Expression Atom)} {readings : List Reading}
    (h : List.Forall₂ IsWrittenAs parts readings) :
    parts.any Expression.isNever = readings.any Reading.isNever := by
  induction h with
  | nil => rfl
  | @cons part r parts readings hpart hparts ih =>
      have hhead : part.isNever = r.isNever := by
        cases hpart with
        | constant b => cases b <;> rfl
        | atom hwritten h => rfl
      rw [List.any_cons, List.any_cons, hhead, ih]

/-- The parts that are no constants are the atoms that are read as formulas. -/
theorem exists_atoms {parts : List (Expression Atom)} {readings : List Reading}
    (h : List.Forall₂ IsWrittenAs parts readings) (hnever : readings.any Reading.isNever = false) :
    ∃ atoms : List Atom, (parts.filter fun e ↦ !e.isAlways) = atoms.map .atom ∧
      (∀ a ∈ atoms, a.pieces.any Piece.isWritten = true) ∧
      List.Forall₂ (fun a f ↦ SameText a.pieces f.pieces) atoms
        (readings.filterMap Reading.formula?) := by
  induction h with
  | nil => exact ⟨[], rfl, List.forall_mem_nil _, .nil⟩
  | @cons part r parts readings hpart hparts ih =>
      rw [List.any_cons, Bool.or_eq_false_iff] at hnever
      obtain ⟨atoms, hatoms, hrest, hformulas⟩ := ih hnever.2
      cases hpart with
      | constant b =>
          cases b with
          | false => cases hnever.1
          | true => exact ⟨atoms, hatoms, hrest, hformulas⟩
      | @atom a f hwritten h =>
          refine ⟨a :: atoms, ?_, List.forall_mem_cons.mpr ⟨hwritten, hrest⟩, .cons h hformulas⟩
          rw [List.map_cons, ← hatoms]
          rfl

/-- Atoms in a row are written with AND between them. -/
theorem pieces_conjunction_atoms {a : Atom} {rest : List Atom}
    (hwritten : ∀ b ∈ a :: rest, b.pieces.any Piece.isWritten = true) :
    (Expression.conjunction ((a :: rest).map .atom)).pieces Atom.pieces =
      a.pieces ++ rest.flatMap fun b ↦ .text " AND " :: b.pieces := by
  cases rest with
  | nil => exact (List.append_nil _).symm
  | cons b rest =>
      have hconjuncts : ∀ atoms : List Atom,
          ((atoms.map Expression.atom).flatMap Expression.conjuncts) = atoms.map .atom := by
        intro atoms
        induction atoms with
        | nil => rfl
        | cons a atoms ih => rw [List.map_cons, List.flatMap_cons, ih]; rfl
      have hparts : ∀ atoms : List Atom,
          Expression.partsOfAll Atom.pieces (atoms.map .atom) = atoms.map Atom.pieces := by
        intro atoms
        induction atoms with
        | nil => rfl
        | cons a atoms ih => rw [List.map_cons, Expression.partsOfAll, ih]; rfl
      have hfilter : ((a :: b :: rest).map Atom.pieces).filter (·.any Piece.isWritten) =
          (a :: b :: rest).map Atom.pieces := by
        rw [List.filter_eq_self, List.forall_mem_map]
        exact hwritten
      have hall : Expression.conjunction ((a :: b :: rest).map .atom) =
          .all (((a :: b :: rest).map Expression.atom).flatMap Expression.conjuncts) := rfl
      rw [hall, hconjuncts, Expression.pieces, hparts, Expression.separated, hfilter]
      simp only [List.map_cons, List.flatMap_cons, List.flatMap_map]

/-- A filter is written as the row of what its parts are read as. -/
theorem statement_filterExpression {parts : List (Expression Atom)} {readings : List Reading}
    (h : List.Forall₂ IsWrittenAs parts readings) :
    (filterExpression parts).statement = Statement.ofPieces (Reading.whole readings).pieces := by
  rw [filterExpression, any_isNever_eq h, Reading.whole]
  cases hnever : readings.any Reading.isNever with
  | true => rfl
  | false =>
      obtain ⟨atoms, hatoms, hwritten, hatomic⟩ := exists_atoms h hnever
      rw [hatoms]
      cases hformulas : readings.filterMap Reading.formula? with
      | nil =>
          rw [hformulas, List.forall₂_nil_right_iff] at hatomic
          rw [hatomic]
          rfl
      | cons f others =>
          rw [hformulas] at hatomic
          obtain ⟨a, rest, ha, hrest, rfl⟩ := List.forall₂_cons_right_iff.mp hatomic
          have hsame : SameText (rest.flatMap fun b ↦ .text " AND " :: b.pieces)
              (others.flatMap fun g ↦ .text " AND " :: g.pieces) := by
            clear hformulas hatoms hatomic hwritten
            induction hrest with
            | nil => rfl
            | cons hhead htail ih => exact (SameText.cons _ hhead).append ih
          have hpieces := (ha.append hsame).ofPieces_eq
          rw [← Formula.pieces_foldl_and, ← pieces_conjunction_atoms hwritten] at hpieces
          exact hpieces

/-! ## Filters -/

/-- Every requirement comes to an entry, and every entry to a part. -/
theorem requirementParts_eq_ok {compiler : Registry} {kinds : List FindKind} {table : Table}
    {requirements : List (Value × Requirement)} {parts : List (Expression Atom)}
    {ids ids' : IdSource}
    (h : requirementParts compiler kinds table requirements ids = .ok parts ids') :
    ∃ entries, List.Forall₂ (IsEntryOf compiler table) requirements entries ∧
      List.Forall₂ (fun entry part ↦ entry.1.part kinds entry.2 = .ok part) entries parts := by
  induction requirements generalizing parts ids ids' with
  | nil =>
      cases h
      exact ⟨[], .nil, .nil⟩
  | cons requirement rest ih =>
      obtain ⟨field, requirement⟩ := requirement
      rw [requirementParts] at h
      simp only [bind_eq_ok_iff, Compiling.ofRendering_eq_ok_iff] at h
      obtain ⟨op, _, hop, s, _, ⟨hselect, rfl⟩, part, _, ⟨hpart, rfl⟩, others, _, hothers, hend⟩ :=
        h
      cases hend
      obtain ⟨entries, hentries, hparts⟩ := ih hothers
      exact ⟨(s, op) :: entries, .cons ⟨hselect, _, _, hop⟩ hentries, .cons hpart hparts⟩

theorem IsEntryOf.eq_of_operator {compiler : Registry} {table : Table} {field : Value}
    {op : FindOperator} {entry : Selection × FindOperator} {s : Selection}
    (h : IsEntryOf compiler table (field, .operator op) entry) (hs : table.select field = .ok s) :
    entry = (s, op) := by
  obtain ⟨hselect, _, _, hcompiled⟩ := h
  cases hcompiled
  exact Prod.ext (Except.ok.inj (hselect.symm.trans hs)) rfl

theorem requirementParts_operator {compiler : Registry} {kinds : List FindKind} {table : Table}
    {field : Value} {op : FindOperator} {s : Selection} {part : Expression Atom}
    {rest : List (Value × Requirement)} {parts : List (Expression Atom)} {ids ids' : IdSource}
    (hselect : table.select field = .ok s) (hpart : s.part kinds op = .ok part)
    (hrest : requirementParts compiler kinds table rest ids = .ok parts ids') :
    requirementParts compiler kinds table ((field, .operator op) :: rest) ids =
      .ok (part :: parts) ids' := by
  rw [requirementParts]
  simp only [bind_eq_ok_iff, Compiling.ofRendering_eq_ok_iff]
  exact ⟨op, ids, rfl, s, ids, ⟨hselect, rfl⟩, part, ids, ⟨hpart, rfl⟩, parts, ids', hrest, rfl⟩

theorem exists_part {kinds : List FindKind} {entries : List (Selection × FindOperator)}
    {parts : List (Expression Atom)}
    (h : List.Forall₂ (fun entry part ↦ entry.1.part kinds entry.2 = .ok part) entries parts) :
    ∀ entry ∈ entries, ∃ part, entry.1.part kinds entry.2 = .ok part := by
  induction h with
  | nil => exact List.forall_mem_nil _
  | cons hpart hparts ih => exact List.forall_mem_cons.mpr ⟨⟨_, hpart⟩, ih⟩

/-- The parts of entries that are read are written as these are read. -/
theorem parts_isWrittenAs {kinds : List FindKind} {entries : List (Selection × FindOperator)}
    {parts : List (Expression Atom)} {readings : List Reading}
    (hparts : List.Forall₂ (fun entry part ↦ entry.1.part kinds entry.2 = .ok part) entries parts)
    (hreadings : List.Forall₂ (IsReadAs kinds) entries readings) :
    List.Forall₂ IsWrittenAs parts readings := by
  induction hparts generalizing readings with
  | nil =>
      cases hreadings
      exact .nil
  | cons hpart hparts ih =>
      cases hreadings with
      | cons hreading hreadings =>
          obtain ⟨part, hok, hwritten⟩ := hreading.exists_isWrittenAs
          obtain rfl := Except.ok.inj (hpart.symm.trans hok)
          exact .cons hwritten (ih hreadings)

/-- A filter is written as the readings of its entries in a row with AND between them, each of which
is also what its entry is written as alone.  Unless a text that is not negated has an OR in the open
and another part beside it, the filter holds when all of its entries do, so that more entries never
let in what fewer keep out. -/
theorem findFilter_reads_as_conjunction {compiler : Registry} {kinds : List FindKind}
    {table : Table} {requirements : List (Value × Requirement)} {e : Expression Atom}
    {ids ids' : IdSource} (h : findFilter compiler kinds table requirements ids = .ok e ids') :
    ∃ entries, List.Forall₂ (IsEntryOf compiler table) requirements entries ∧
      (∀ entry ∈ entries, entry.2.IsNative → ∃ r, IsReadAs kinds entry r) ∧
      ∀ readings, List.Forall₂ (IsReadAs kinds) entries readings →
        List.Forall₂ (fun entry r ↦ ∃ part, entry.1.part kinds entry.2 = .ok part ∧
          part.statement = Statement.ofPieces r.pieces ∧
          (r.HasOr → ¬entry.2.IsNative ∧ entry.2.negations % 2 = 0)) entries readings ∧
        e.statement = Statement.ofPieces (Reading.whole readings).pieces ∧
        (∀ st, e.statement = .ok st → HasOneValueEach (Reading.whole readings).pieces →
          ∀ p ∈ parametersOf (Reading.whole readings).pieces,
            st.params.get? p.name = some p.bind.value) ∧
        (Reading.IsSafe readings → ∀ holds,
          ((Reading.whole readings).truth? holds = some true ↔
            ∀ r ∈ readings, r.truth? holds = some true) ∧
          ∀ fewer : List Reading, fewer.Sublist readings →
            (Reading.whole readings).truth? holds = some true →
            (Reading.whole fewer).truth? holds = some true) := by
  rw [findFilter, bind_eq_ok_iff] at h
  obtain ⟨parts, _, hparts, hend⟩ := h
  cases hend
  obtain ⟨entries, hentries, hparts⟩ := requirementParts_eq_ok hparts
  refine ⟨entries, hentries, fun entry hentry hnative ↦ ?_, fun readings hreadings ↦ ?_⟩
  · obtain ⟨part, hpart⟩ := exists_part hparts entry hentry
    exact exists_isReadAs hnative hpart
  have hwritten := parts_isWrittenAs hparts hreadings
  have hstatement := statement_filterExpression hwritten
  refine ⟨hreadings.imp fun entry r hreading ↦ ?_, hstatement, fun st hst hvalues p hp ↦ ?_,
    fun hsafe holds ↦ ⟨Reading.truth?_whole_eq_true_iff holds hsafe, fun fewer hfewer hwhole ↦ ?_⟩⟩
  · obtain ⟨part, hpart, hwritten⟩ := hreading.exists_isWrittenAs
    exact ⟨part, hpart, hwritten.statement_eq, hreading.of_hasOr⟩
  · exact Statement.get?_params (hstatement.symm.trans hst) hvalues hp
  · rw [Reading.truth?_whole_eq_true_iff holds hsafe] at hwhole
    rw [Reading.truth?_whole_eq_true_iff holds (hsafe.sublist hfewer)]
    exact fun r hr ↦ hwhole r (hfewer.subset hr)

def people : Table := ⟨"person", ["id", "name"]⟩

/-- A text with an OR in it. -/
def alternative : FindOperator := .raw .null "\x7balias\x7d = 1 OR active IS NULL" [] none

def alternativeReading : Formula :=
  ⟨.test [.text "person.id = 1"], [(.or, .test [.text "active IS NULL"])]⟩

def nameReading : Formula :=
  .single (.test (Test.mk ⟨"person", "name"⟩ false (.equal (.text "Ann"))).pieces)

theorem part_alternative : (Selection.one ⟨"person", "id"⟩).part Atom.allKinds alternative =
    .ok (.atom (.text ⟨"person.id = 1 OR active IS NULL", []⟩)) := by
  have hfill : Template.fill "\x7balias\x7d = 1 OR active IS NULL" "person.id" =
      .ok "person.id = 1 OR active IS NULL" :=
    @Template.fill_field_of_isPlain " = 1 OR active IS NULL" (by decide) "person.id"
  have halias : Atom.templateAlias ⟨"person", "id"⟩ none = "person.id" := rfl
  rw [alternative, Selection.part, Atom.ofOperator, Atom.ofRaw, halias, FindOperator.render, hfill]
  rfl

/-- A text with an OR in it that is negated, and a comparison beside it. -/
theorem findFilter_reads_as_conjunction_negated :
    ∃ (e : Expression Atom) (ids' : IdSource),
      findFilter .full Atom.allKinds people [(.text "id", .operator (.not alternative)),
        (.text "name", .operator (.equal (.text "Ann")))] .standard = .ok e ids' ∧
      alternativeReading.HasOr ∧
      e.statement = Statement.ofPieces (alternativeReading.negated.and nameReading).pieces ∧
      ∀ holds, truthOf? holds (alternativeReading.negated.and nameReading).marks = some true ↔
        ∀ f ∈ [alternativeReading.negated, nameReading], truthOf? holds f.marks = some true := by
  obtain ⟨t', hnot, -⟩ := Selection.part_not_text rfl part_alternative
  obtain ⟨e, ids', hfilter⟩ : ∃ e ids', findFilter .full Atom.allKinds people
      [(.text "id", .operator (.not alternative)),
        (.text "name", .operator (.equal (.text "Ann")))] .standard = .ok e ids' :=
    ⟨_, _, bind_eq_ok_iff.mpr ⟨_, _, requirementParts_operator rfl hnot
      (requirementParts_operator rfl rfl rfl), rfl⟩⟩
  obtain ⟨entries, hentries, -, hreads⟩ := findFilter_reads_as_conjunction hfilter
  obtain ⟨first, others, hfirst, hothers, rfl⟩ := List.forall₂_cons_left_iff.mp hentries
  obtain ⟨second, rest, hsecond, hrest, rfl⟩ := List.forall₂_cons_left_iff.mp hothers
  obtain rfl := List.forall₂_nil_left_iff.mp hrest
  obtain rfl := hfirst.eq_of_operator (s := .one ⟨"person", "id"⟩) rfl
  obtain rfl := hsecond.eq_of_operator (s := .one ⟨"person", "name"⟩) rfl
  have hraw : ¬(FindOperator.not alternative).IsNative := fun hnative ↦ hnative rfl
  have htext : IsReadAs Atom.allKinds (.one ⟨"person", "id"⟩, .not alternative)
      (.formula alternativeReading.negated) :=
    IsReadAs.text (f := alternativeReading) hraw part_alternative rfl rfl
  have htest : IsReadAs Atom.allKinds (.one ⟨"person", "name"⟩, .equal (.text "Ann"))
      (.formula nameReading) := IsReadAs.test rfl
  obtain ⟨-, hstatement, -, hsafe⟩ := hreads _ (.cons htext (.cons htest .nil))
  have hnone : Reading.IsSafe [.formula alternativeReading.negated, .formula nameReading] := by
    refine Or.inr (List.forall_mem_cons.mpr ⟨Formula.not_hasOr_single _, ?_⟩)
    exact List.forall_mem_singleton.mpr (Formula.not_hasOr_single _)
  refine ⟨e, ids', hfilter, ⟨_, List.mem_cons_self, rfl⟩, hstatement, fun holds ↦ ?_⟩
  have hconjunction := (hsafe hnone holds).1
  rw [List.forall_mem_cons, List.forall_mem_singleton] at hconjunction ⊢
  exact hconjunction

/-- A text with an OR in it is not put in brackets, and the filter holds of a row of which the
comparison beside the text does not. -/
theorem findFilter_lets_in :
    ∃ (e : Expression Atom) (f g : Formula) (ids' : IdSource) (holds : List Piece → Bool),
      findFilter .full Atom.allKinds people [(.text "id", .operator alternative),
        (.text "name", .operator (.equal (.text "Ann")))] .standard = .ok e ids' ∧
      e.statement = .ok ⟨"person.id = 1 OR active IS NULL AND person.name = :name_1",
        [("name_1", .text "Ann")]⟩ ∧
      Statement.ofPieces f.pieces = .ok ⟨"person.id = 1 OR active IS NULL", []⟩ ∧
      Statement.ofPieces g.pieces = .ok ⟨"person.name = :name_1", [("name_1", .text "Ann")]⟩ ∧
      e.statement = Statement.ofPieces (f.and g).pieces ∧
      truthOf? holds (f.and g).marks = some true ∧ truthOf? holds g.marks = some false :=
  -- Of the tests those hold that have no parameter, so the one of the name does not.
  ⟨_, alternativeReading, nameReading, _, fun pieces ↦ (parametersOf pieces).isEmpty,
    bind_eq_ok_iff.mpr ⟨_, _, requirementParts_operator rfl part_alternative
      (requirementParts_operator rfl rfl rfl), rfl⟩, rfl, rfl, rfl, rfl, rfl, rfl⟩

end Criteria.Sql
