import Criteria.Proofs.Rendering
import Criteria.Proofs.Replay

/-!
# Drafts of fragments

A draft is a fragment in which the identifiers are still to be filled in.  It says where in the
query which identifier stands, and its parameters are those that are named in the query, in the same
order.  Drafts are put together like the clauses that they become, and the signs of a where clause
do not depend on the identifiers.
-/

namespace Criteria

/-- A part of a query: a text, or a name that begins with the identifier of a number. -/
inductive Sign where
  | text (s : String)
  | name (number : Nat) (rest : String)

namespace Sign

/-- The name that a sign is, if it is one. -/
def name? : Sign → Option (Nat × String)
  | text _ => none
  | name number rest => some (number, rest)

def fill (id : Nat → String) : Sign → String
  | text s => s
  | name number rest => id number ++ rest

end Sign

/-- The text of signs with identifiers filled in. -/
def signsText (id : Nat → String) : List Sign → String
  | [] => ""
  | sign :: rest => sign.fill id ++ signsText id rest

/-- The names among signs, from the left. -/
def signNames (signs : List Sign) : List (Nat × String) := signs.filterMap Sign.name?

theorem signNames_append (signs others : List Sign) :
    signNames (signs ++ others) = signNames signs ++ signNames others :=
  List.filterMap_append

/-- A fragment without its identifiers.  Each parameter is named once in the query, and in the order
of the parameters. -/
structure Draft where
  query : List Sign
  parameters : List ((Nat × String) × Value)
  named : signNames query = parameters.map (·.1)

namespace Draft

def fill (id : Nat → String) (d : Draft) : Fragment :=
  ⟨signsText id d.query, d.parameters.map fun p ↦ (id p.1.1 ++ p.1.2, p.2)⟩

/-- All identifiers that are to be filled in have a number from an interval. -/
def IsWithin (low high : Nat) (d : Draft) : Prop :=
  ∀ p ∈ d.parameters, low ≤ p.1.1 ∧ p.1.1 < high

theorem IsWithin.mono {low high low' high' : Nat} {d : Draft} (h : d.IsWithin low high)
    (hlow : low' ≤ low) (hhigh : high ≤ high') : d.IsWithin low' high' := by
  intro p hp
  obtain ⟨hp, hp'⟩ := h p hp
  omega

end Draft

namespace Clause

open Item (contents contentsOf relabel relabelOf)

/-! ## Drafts in a row -/

/-- Signs in a row, each part with its join in front but the first. -/
def joinSigns : List (Join × List Sign) → List Sign
  | [] => []
  | (_, first) :: rest =>
    first ++ rest.flatMap fun (j, part) ↦ .text (" " ++ j.keyword ++ " ") :: part

/-- Parts in brackets, unless there are none. -/
def bracketedSigns? : List (Join × List Sign) → Option (List Sign)
  | [] => none
  | part :: rest => some (.text "(" :: (joinSigns (part :: rest) ++ [.text ")"]))

mutual

/-- The part that an item contributes, if any. -/
def signPart : Item Draft → Option (Join × List Sign)
  | .clause j d => some (j, d.query)
  | .group j items => (bracketedSigns? (signParts items)).map (j, ·)
termination_by structural item => item

/-- The parts that items contribute. -/
def signParts : List (Item Draft) → List (Join × List Sign)
  | [] => []
  | item :: rest =>
    match signPart item with
    | some part => part :: signParts rest
    | none => signParts rest
termination_by structural items => items

end

theorem signNames_joinSigns (parts : List (Join × List Sign)) :
    signNames (joinSigns parts) = parts.flatMap (signNames ·.2) := by
  have hrest : ∀ rest : List (Join × List Sign),
      signNames (rest.flatMap fun p ↦ .text (" " ++ p.1.keyword ++ " ") :: p.2) =
        rest.flatMap (signNames ·.2) := by
    intro rest
    induction rest with
    | nil => rfl
    | cons p rest ih =>
        rw [List.flatMap_cons, List.flatMap_cons, signNames_append, ih]
        rfl
  cases parts with
  | nil => rfl
  | cons p rest =>
      obtain ⟨j, first⟩ := p
      rw [joinSigns, signNames_append, hrest, List.flatMap_cons]

theorem signNames_signParts (items : List (Item Draft)) :
    (signParts items).flatMap (signNames ·.2) =
      (contents items).flatMap fun d ↦ d.parameters.map (·.1) := by
  induction items using Item.sequence_induction with
  | nil => rfl
  | clause j d rest ih =>
      rw [signParts, signPart, contents, contentsOf]
      simp only [List.flatMap_cons, List.singleton_append, ih, d.named]
  | group j inner rest ihInner ih =>
      rw [contents, contentsOf, List.flatMap_append, ← ihInner, ← ih, signParts, signPart]
      cases hinner : signParts inner with
      | nil => rfl
      | cons part parts =>
          have hbrackets : signNames (.text "(" :: (joinSigns (part :: parts) ++ [.text ")"])) =
              signNames (joinSigns (part :: parts)) := by
            rw [signNames, List.filterMap_cons_none rfl, List.filterMap_append]
            exact List.append_nil _
          simp only [bracketedSigns?, Option.map_some, List.flatMap_cons, hbrackets,
            signNames_joinSigns]

end Clause

/-- The draft of a whole where clause. -/
def Draft.ofItems (items : List (Clause.Item Draft)) : Draft where
  query := Clause.joinSigns (Clause.signParts items)
  parameters := (Clause.Item.contents items).flatMap (·.parameters)
  named := by
    rw [Clause.signNames_joinSigns, Clause.signNames_signParts, List.map_flatMap]

namespace Clause

open Item (contents contentsOf relabel relabelOf)

/-! ## Filling in -/

end Clause

end Criteria
