import Criteria.Proofs.Calls
import Criteria.Proofs.Meaning
import Criteria.Proofs.Rendering

/-!
# The two sinks mean the same

A builder leaves precedence to whoever reads its text, and a where clause makes the runs of AND
itself.  After the same calls both have their clauses in the same places, and the truth of either
depends on the joins and the nesting alone.
-/

namespace Criteria.Clause

open Sql (WhereClause)

/-- Sessions that are alike give a text and an expression with the same truth, for every group. -/
theorem Session.Alike.truth? {s : Session Builder} {t : Session WhereClause} (h : s.Alike t)
    {path : Path} (hwritten : ∀ f ∈ Item.contents (Item.itemsAt path s.sink.items), f.query ≠ "")
    (truth : Nat → Bool) : Clause.truth? truth (tokensOf (Item.itemsAt path s.sink.items)) =
      (t.sink.build? path).map (Sql.Expression.holds truth 0) := by
  rw [truth?_tokensOf truth _ hwritten, WhereClause.holds_build?]
  exact itemsTruth?_eq_of_relabel_eq (h.bound.itemsAt path) truth 0

/-- The same calls on a builder and on a where clause, each on the sink itself or on any group that
has been opened, give a text and an expression that mean the same.  The clauses of the text are, one
by one, the atoms of the expression, and under every truth assignment to them the text read under
precedence has the truth of the expression.  The text is empty just when there is no expression. -/
theorem text_and_expression_agree {calls : List Call} (hcalls : ∀ call ∈ calls, call.IsWritten)
    {s : Session Builder} {t : Session WhereClause}
    (hs : Call.performAll calls (.start Builder.empty) = .ok s)
    (ht : Call.performAll calls (.start WhereClause.empty) = .ok t) (path : Path) :
    (∃ fragments : List Fragment,
      queries (tokensOf (Item.itemsAt path s.sink.items)) = fragments.map (·.query) ∧
      fragments.map boundText = (t.sink.atoms path).map .ok) ∧
    (∀ truth, truth? truth (tokensOf (Item.itemsAt path s.sink.items)) =
      (t.sink.build? path).map (Sql.Expression.holds truth 0)) ∧
    ((s.sink.build path).query = "" ↔ t.sink.build? path = none) := by
  have hempty : BoundAs Builder.empty.items WhereClause.empty.items := rfl
  have halike : s.Alike t := Call.alike_performAll ⟨hempty, rfl⟩ hs ht
  have hall : ∀ f ∈ Item.contents s.sink.items, f.query ≠ "" :=
    Call.written_performAll hcalls (by simp [Session.start, Builder.empty, Item.contents]) hs
  have hwritten : ∀ f ∈ Item.contents (Item.itemsAt path s.sink.items), f.query ≠ "" :=
    fun f hf ↦ hall f (Item.mem_contents_itemsAt hf)
  refine ⟨⟨Item.contents (Item.itemsAt path s.sink.items), queries_tokensOf _ hwritten, ?_⟩,
    halike.truth? hwritten, ?_⟩
  · rw [WhereClause.atoms_eq_contents]
    exact (halike.bound.itemsAt path).map_contents
  · have htruth := halike.truth? hwritten fun _ ↦ true
    rw [truth?_tokensOf _ _ hwritten] at htruth
    change render (Item.itemsAt path s.sink.items) = "" ↔ _
    rw [render_eq_empty_iff (fun _ ↦ true) _ hwritten, htruth, Option.map_eq_none_iff]

/-- An empty group in front, both joins in one sequence and a clause that is added to a group after
the sequence around it has gone on.  Only `d` holds. -/
theorem text_and_expression_agree_mixed :
    ∃ (calls : List Call) (s : Session Builder) (t : Session WhereClause),
      (∀ call ∈ calls, call.IsWritten) ∧
      Call.performAll calls (.start Builder.empty) = .ok s ∧
      Call.performAll calls (.start WhereClause.empty) = .ok t ∧
      (s.sink.build []).query = "a = :p AND (b OR c AND f) OR d" ∧
      truth? (· == 4) (tokensOf (Item.itemsAt [] s.sink.items)) = some true ∧
      (t.sink.build? []).map (Sql.Expression.holds (· == 4) 0) = some true := by
  have hcalls : ∀ call ∈ [Call.group 0 .or, .clause 0 .or "a = :p" [("p", .int 1)], .group 0 .and,
      .clause 2 .and "b" [], .clause 2 .or "c" [], .clause 0 .or "d" [], .clause 2 .and "f" []],
      call.IsWritten := by
    simp [Call.IsWritten]
  refine ⟨_, _, _, hcalls, rfl, rfl, by decide, by decide, ?_⟩
  exact ((text_and_expression_agree hcalls rfl rfl []).2.1 (· == 4)).symm.trans (by decide)

end Criteria.Clause
