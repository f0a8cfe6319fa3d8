import Mathlib.Algebra.Order.Field.Rat
import Mathlib.Data.List.Sort
import Mathlib.Data.Prod.Lex
import Mathlib.Data.String.Basic
import Criteria.Proofs.Language

/-!
# Suggestions

Candidates are ranked by their scores, and those of one score by their texts.  Only a word and
itself rank alike, so the ranking does not depend on the order in which the candidates are listed.
A registry lists no operator twice, whatever has been registered and taken away, so what it reports
of an unknown operator depends on the operators that it holds and on nothing else.
-/

namespace Criteria

/-- What is sorted comes out the same in whatever order it went in. -/
theorem mergeSort_eq_of_perm {α : Type*} [LinearOrder α] {l l' : List α} (h : l.Perm l') :
    l.mergeSort (decide <| · ≤ ·) = l'.mergeSort (decide <| · ≤ ·) := by
  have hsorted := (List.mergeSort_perm l (decide <| · ≤ ·)).trans
    (h.trans (List.mergeSort_perm l' (decide <| · ≤ ·)).symm)
  exact hsorted.eq_of_sortedLE List.sortedLE_mergeSort List.sortedLE_mergeSort

/-! ## Ranking -/

namespace Similarity

theorem size_longestBlock_nil (left : Nat) (as : List Char) :
    (longestBlock left as []).size = 0 := by
  induction as generalizing left with
  | nil => rfl
  | cons a as ih =>
      rw [longestBlock, Block.longer]
      split
      · exact ih (left + 1)
      · rfl

/-- No character is matched in a word that has none. -/
theorem matched_nil (as : List Char) : matched as [] = 0 := by
  cases as with
  | nil => rfl
  | cons a as => simp [matched, matchedWithin, size_longestBlock_nil]

namespace Scored

/-- The rank of a candidate: its score and then its word, both downwards. -/
def rank (s : Scored) : (ℚ ×ₗ String)ᵒᵈ := .toDual (toLex ((s.matched : ℚ) / s.total, s.word))

theorem before_eq_of_total_pos {s t : Scored} (hs : 0 < s.total) (ht : 0 < t.total) :
    s.before t = decide (s.rank ≤ t.rank) := by
  have hs' : (0 : ℚ) < s.total := Nat.cast_pos.mpr hs
  have ht' : (0 : ℚ) < t.total := Nat.cast_pos.mpr ht
  rw [Bool.eq_iff_iff, before, decide_eq_true_eq, rank, rank, OrderDual.toDual_le_toDual,
    Prod.Lex.toLex_le_toLex, div_lt_div_iff₀ ht' hs', div_eq_div_iff ht'.ne' hs'.ne']
  simp only [Bool.or_eq_true, Bool.and_eq_true, decide_eq_true_eq, beq_iff_eq]
  norm_cast

/-- Nothing but the empty word is close to it. -/
theorem eq_empty_of_close {candidate : String} (h : (ofWords "" candidate).close = true) :
    candidate = "" := by
  have hle : 3 * (candidate.length + 0) ≤ 10 * Similarity.matched candidate.toList [] :=
    of_decide_eq_true h
  rw [matched_nil] at hle
  exact String.length_eq_zero_iff.mp (by omega)

/-- Close candidates come in the order of their ranks. -/
theorem before_eq_of_close {word a b : String} (ha : (ofWords word a).close = true)
    (hb : (ofWords word b).close = true) :
    (ofWords word a).before (ofWords word b) =
      decide ((ofWords word a).rank ≤ (ofWords word b).rank) := by
  by_cases hword : word = ""
  · subst hword
    obtain rfl := eq_empty_of_close ha
    obtain rfl := eq_empty_of_close hb
    exact (decide_eq_true (le_refl _)).symm
  · have hlength : 0 < word.length := by
      rw [Nat.pos_iff_ne_zero, ne_eq, String.length_eq_zero_iff]
      exact hword
    exact before_eq_of_total_pos (Nat.add_pos_right _ hlength) (Nat.add_pos_right _ hlength)

end Scored

/-- The closest candidates are the first of all ranks. -/
theorem closest_eq_map_rank (word : String) (candidates : List String) :
    closest word candidates =
      ((((((candidates.map (Scored.ofWords word)).filter Scored.close).map Scored.rank).mergeSort
        (decide <| · ≤ ·)).take 3).map fun r ↦ (ofLex r.ofDual).2) := by
  have hranked : ∀ s ∈ (candidates.map (Scored.ofWords word)).filter Scored.close,
      ∀ t ∈ (candidates.map (Scored.ofWords word)).filter Scored.close,
        s.before t = decide (s.rank ≤ t.rank) := by
    intro s hs t ht
    obtain ⟨hs, hclose⟩ := List.mem_filter.mp hs
    obtain ⟨ht, hclose'⟩ := List.mem_filter.mp ht
    obtain ⟨a, -, rfl⟩ := List.mem_map.mp hs
    obtain ⟨b, -, rfl⟩ := List.mem_map.mp ht
    exact Scored.before_eq_of_close hclose hclose'
  rw [closest, ← List.map_mergeSort hranked, ← List.map_take, List.map_map]
  rfl

theorem closest_eq_of_perm {candidates candidates' : List String}
    (h : candidates.Perm candidates') (word : String) :
    closest word candidates = closest word candidates' := by
  rw [closest_eq_map_rank, closest_eq_map_rank,
    mergeSort_eq_of_perm (((h.map _).filter _).map Scored.rank)]

end Similarity

/-! ## Reports -/

namespace ConditionFault

variable {known known' : List String}

theorem suggestions_eq_of_perm (h : known.Perm known') (request : OperatorRequest) :
    suggestions known request = suggestions known' request := by
  rw [suggestions, suggestions]
  cases request.tokenText? with
  | none => rfl
  | some s => exact Similarity.closest_eq_of_perm h s

theorem message_unknownOperator (request : OperatorRequest) (known : List String) :
    (unknownOperator request known).message =
      "INVALID_CONDITION_OPERATOR" ++ " " ++ request.text ++
        (if (suggestions known request).isEmpty then ""
          else ". Did you mean: " ++ String.intercalate ", " (suggestions known request) ++ "?") :=
  rfl

theorem report_unknownOperator (request : OperatorRequest) (known : List String) :
    (unknownOperator request known).report =
      [("error", .text "INVALID_CONDITION_OPERATOR"),
       ("message", .text (unknownOperator request known).message),
       ("operator", .text request.text),
       ("suggestions", textList (suggestions known request)),
       ("valid_operators", textList (known.mergeSort (decide <| · ≤ ·)))] :=
  rfl

/-- Two faults of unknown operators that tell a caller the same. -/
structure Alike (request : OperatorRequest) (known known' : List String) : Prop where
  suggestions : ConditionFault.suggestions known request = ConditionFault.suggestions known' request
  message : (unknownOperator request known).message = (unknownOperator request known').message
  report : (unknownOperator request known).report = (unknownOperator request known').report

theorem alike_of_perm (h : known.Perm known') (request : OperatorRequest) :
    Alike request known known' := by
  have hsuggestions := suggestions_eq_of_perm h request
  have hmessage : (unknownOperator request known).message =
      (unknownOperator request known').message := by
    rw [message_unknownOperator, message_unknownOperator, hsuggestions]
  refine ⟨hsuggestions, hmessage, ?_⟩
  rw [report_unknownOperator, report_unknownOperator, hmessage, hsuggestions,
    mergeSort_eq_of_perm h]

end ConditionFault

/-! ## Registries -/

namespace Registry

/-- A call that changes which operators a registry holds. -/
inductive Change where
  | register (o : Operator)
  | unregister (o : Operator)

/-- A registry after a call. -/
def Change.apply (r : Registry) : Change → Registry
  | register o => r.register o
  | unregister o => r.unregister o

/-- A new registry after some calls. -/
def after (changes : List Change) : Registry := changes.foldl Change.apply []

theorem Change.nodup_apply {r : Registry} (h : r.Nodup) (change : Change) :
    (change.apply r).Nodup := by
  cases change with
  | register o =>
      rw [apply, Registry.register]
      split
      · exact h
      · rename_i ho
        rw [List.contains_iff_mem] at ho
        exact h.append (List.nodup_singleton o) (List.disjoint_singleton.mpr ho)
  | unregister o => exact h.filter _

/-- No operator is listed twice. -/
theorem nodup_after (changes : List Change) : (after changes).Nodup := by
  have hrun : ∀ r : Registry, r.Nodup → (changes.foldl Change.apply r).Nodup := by
    induction changes with
    | nil => exact fun r h ↦ h
    | cons change changes ih => exact fun r h ↦ ih _ (change.nodup_apply h)
  exact hrun [] List.nodup_nil

theorem after_perm_after {changes changes' : List Change}
    (h : ∀ o, o ∈ after changes ↔ o ∈ after changes') : (after changes).Perm (after changes') :=
  (List.perm_ext_iff_of_nodup (nodup_after changes) (nodup_after changes')).mpr h

theorem resolve_of_mem {r : Registry} {request : OperatorRequest} {o : Operator}
    (hrequest : request.tokenText? = some o.token) (ho : o ∈ r) : r.resolve request = .ok o := by
  rw [resolve, find?_eq_some_iff.mpr ⟨hrequest, ho⟩]

theorem resolve_of_forall_notMem {r : Registry} {request : OperatorRequest}
    (h : ∀ o : Operator, request.tokenText? = some o.token → o ∉ r) :
    r.resolve request = .error (.unknownOperator request (r.map Operator.token)) := by
  have hnone : r.find? request = none := by
    rw [Option.eq_none_iff_forall_ne_some]
    intro o ho
    obtain ⟨hrequest, hmem⟩ := find?_eq_some_iff.mp ho
    exact h o hrequest hmem
  rw [resolve, hnone]

/-- Whatever order the known operators are listed in, a fault of an unknown one suggests the same,
in the same order, and has the same message and the same report.  So what resolving an operator
comes to depends only on the operators that have been registered and not taken away again, and not
on the order in which they are enumerated. -/
theorem unknown_operator_ignores_enumeration :
    (∀ (request : OperatorRequest) (known known' : List String), known.Perm known' →
      ConditionFault.Alike request known known') ∧
    ∀ changes changes' : List Change, (∀ o, o ∈ after changes ↔ o ∈ after changes') →
      ∀ listed listed' : Registry, listed.Perm (after changes) → listed'.Perm (after changes') →
      ∀ request : OperatorRequest,
        (∀ o ∈ after changes, request.tokenText? = some o.token →
          listed.resolve request = .ok o ∧ listed'.resolve request = .ok o) ∧
        ((∀ o ∈ after changes, request.tokenText? ≠ some o.token) → ∃ known known',
          listed.resolve request = .error (.unknownOperator request known) ∧
          listed'.resolve request = .error (.unknownOperator request known') ∧
          ConditionFault.Alike request known known') := by
  refine ⟨fun request known known' h ↦ ConditionFault.alike_of_perm h request, ?_⟩
  intro changes changes' hset listed listed' hlisted hlisted' request
  have hperm : listed.Perm listed' := (hlisted.trans (after_perm_after hset)).trans hlisted'.symm
  constructor
  · intro o ho hrequest
    have hmem : o ∈ listed := hlisted.mem_iff.mpr ho
    exact ⟨resolve_of_mem hrequest hmem, resolve_of_mem hrequest (hperm.mem_iff.mp hmem)⟩
  · intro hunknown
    have hnotMem : ∀ o : Operator, request.tokenText? = some o.token → o ∉ listed :=
      fun o hrequest ho ↦ hunknown o (hlisted.mem_iff.mp ho) hrequest
    have hnotMem' : ∀ o : Operator, request.tokenText? = some o.token → o ∉ listed' :=
      fun o hrequest ho ↦ hnotMem o hrequest (hperm.mem_iff.mpr ho)
    exact ⟨_, _, resolve_of_forall_notMem hnotMem, resolve_of_forall_notMem hnotMem',
      ConditionFault.alike_of_perm (hperm.map _) request⟩

/-- Two operators are equally close to a token, and both registries suggest them in one order. -/
theorem unknown_operator_ignores_enumeration_tie :
    ∃ (changes changes' : List Change) (request : OperatorRequest) (known known' : List String),
      changes = [.register .gt, .register .lt, .register .isIn] ∧
      changes' = [.register .isIn, .register .lt, .register .between, .register .gt,
        .unregister .between] ∧
      request = .token (.text "$t") ∧
      (after changes).resolve request = .error (.unknownOperator request known) ∧
      (after changes').resolve request = .error (.unknownOperator request known') ∧
      ConditionFault.suggestions known request = ["$lt", "$gt"] ∧
      ConditionFault.suggestions known' request = ["$lt", "$gt"] := by
  have hset : ∀ o, o ∈ after [.register .gt, .register .lt, .register .isIn] ↔
      o ∈ after [.register .isIn, .register .lt, .register .between, .register .gt,
        .unregister .between] := by
    intro o
    cases o <;> decide
  have hunknown : ∀ o ∈ after [.register .gt, .register .lt, .register .isIn],
      (OperatorRequest.token (.text "$t")).tokenText? ≠ some o.token := by
    decide
  obtain ⟨known, known', hknown, hknown', halike⟩ :=
    (unknown_operator_ignores_enumeration.2 _ _ hset _ _ (.refl _) (.refl _)
      (.token (.text "$t"))).2 hunknown
  have hsecond : ConditionFault.suggestions known' (.token (.text "$t")) = ["$lt", "$gt"] := by
    have hlisted : (after [.register .isIn, .register .lt, .register .between, .register .gt,
        .unregister .between]).resolve (.token (.text "$t")) =
          .error (.unknownOperator _ ["$in", "$lt", "$gt"]) := rfl
    cases hlisted.symm.trans hknown'
    have hclose : (["$in", "$lt", "$gt"].map (Similarity.Scored.ofWords "$t")).filter
        Similarity.Scored.close = [⟨"$lt", 2, 5⟩, ⟨"$gt", 2, 5⟩] := rfl
    have hsorted : [⟨"$lt", 2, 5⟩, ⟨"$gt", 2, 5⟩].Pairwise (Similarity.Scored.before · ·) := by
      decide
    change ((((["$in", "$lt", "$gt"].map (Similarity.Scored.ofWords "$t")).filter
      Similarity.Scored.close).mergeSort Similarity.Scored.before).take 3).map
        Similarity.Scored.word = _
    rw [hclose, List.mergeSort_of_pairwise hsorted]
    rfl
  exact ⟨_, _, _, known, known', rfl, rfl, rfl, hknown, hknown',
    halike.suggestions.trans hsecond, hsecond⟩

end Registry

end Criteria
