import Criteria.Proofs.Trees

/-!
# Entries in order

A tree is visited depth first.  At each place it either has a condition on a field, or it is not of
the right shape there and nothing can be done.  Each visit is to an entry of the tree, which is
reached through logical keys and indices, and the conditions that are visited are its leaves.
-/

namespace Criteria

namespace FilterTree

/-- Where an entry stands: the logical keys on the way to it, each with the index in its list. -/
abbrev Position := List (LogicalKey × Nat)

def positionText : Position → String
  | [] => ""
  | (key, index) :: rest => key.token ++ "[" ++ toString index ++ "]." ++ positionText rest

/-- What a tree has at one place. -/
inductive Finding where
  | condition (field condition : Value)
  | misshapen (key : LogicalKey) (fault : ConditionFault)

def Finding.field : Finding → Value
  | condition field _ => field
  | misshapen key _ => .text key.token

structure Visit where
  position : Position
  finding : Finding

/-- A visit seen from the tree whose list holds the tree at an index. -/
def Visit.under (key : LogicalKey) (index : Nat) (v : Visit) : Visit :=
  ⟨(key, index) :: v.position, v.finding⟩

mutual

def entryVisits : List (Value × Value) → List Visit
  | [] => []
  | (field, condition) :: rest =>
    (match logicalKey? field with
      | some key => groupVisits key condition
      | none => [⟨[], .condition field condition⟩]) ++ entryVisits rest
termination_by structural entries => entries

def groupVisits (key : LogicalKey) : Value → List Visit
  | .list subtrees => subtreesVisits key 0 subtrees
  | .tuple subtrees => subtreesVisits key 0 subtrees
  | subtrees => [⟨[], .misshapen key (notList key subtrees)⟩]
termination_by structural subtrees => subtrees

def subtreesVisits (key : LogicalKey) (index : Nat) : List Value → List Visit
  | [] => []
  | subtree :: rest => subtreeVisits key index subtree ++ subtreesVisits key (index + 1) rest
termination_by structural subtrees => subtrees

def subtreeVisits (key : LogicalKey) (index : Nat) : Value → List Visit
  | .dict entries => (entryVisits entries).map (Visit.under key index)
  | subtree => [⟨[], .misshapen key (notElement key index subtree)⟩]
termination_by structural subtree => subtree

end

theorem logicalKey?_eq_some {field : Value} {key : LogicalKey} (h : logicalKey? field = some key) :
    field = .text key.token := by
  cases field with
  | text s =>
      have htoken := List.find?_some h
      simp only [beq_iff_eq] at htoken
      rw [htoken]
  | _ => simp [logicalKey?] at h

/-- Induction on the entries of a tree and into all trees under logical keys, whatever else stands
beside them. -/
theorem trees_induction {motive : List (Value × Value) → Prop} (nil : motive [])
    (leaf : ∀ field condition rest, logicalKey? field = none → motive rest →
      motive ((field, condition) :: rest))
    (group : ∀ field condition rest key, logicalKey? field = some key →
      (∀ subtrees, condition.items? = some subtrees →
        ∀ entries, Value.dict entries ∈ subtrees → motive entries) →
      motive rest → motive ((field, condition) :: rest))
    (entries : List (Value × Value)) : motive entries := by
  cases entries with
  | nil => exact nil
  | cons entry rest =>
      obtain ⟨field, condition⟩ := entry
      have hrest := trees_induction nil leaf group rest
      cases hkey : logicalKey? field with
      | none => exact leaf field condition rest hkey hrest
      | some key =>
          apply group field condition rest key hkey _ hrest
          intro subtrees hsubtrees inner hinner
          have hlt : sizeOf inner < sizeOf condition := by
            have hmem := List.sizeOf_lt_of_mem hinner
            rw [Value.dict.sizeOf_spec] at hmem
            cases condition with
            | list items =>
                obtain rfl := Option.some.inj hsubtrees
                rw [Value.list.sizeOf_spec]
                omega
            | tuple items =>
                obtain rfl := Option.some.inj hsubtrees
                rw [Value.tuple.sizeOf_spec]
                omega
            | _ => simp [Value.items?] at hsubtrees
          exact trees_induction nil leaf group inner
termination_by sizeOf entries
decreasing_by
  · simp only [List.cons.sizeOf_spec]
    omega
  · simp only [List.cons.sizeOf_spec, Prod.mk.sizeOf_spec]
    omega

/-- The condition that a visit comes to, with its field. -/
def Visit.leaf? : Visit → Option (Value × Value)
  | ⟨_, .condition field condition⟩ => some (field, condition)
  | ⟨_, .misshapen _ _⟩ => none

theorem filterMap_leaf?_under (key : LogicalKey) (index : Nat) (visits : List Visit) :
    (visits.map (Visit.under key index)).filterMap Visit.leaf? = visits.filterMap Visit.leaf? := by
  rw [List.filterMap_map]
  congr 1
  funext v
  obtain ⟨position, finding⟩ := v
  cases finding <;> rfl

/-- The conditions that are visited are the leaves of a tree. -/
theorem filterMap_leaf?_entryVisits (entries : List (Value × Value)) :
    (entryVisits entries).filterMap Visit.leaf? = entryLeaves entries := by
  induction entries using trees_induction with
  | nil => rfl
  | leaf field condition rest hkey ih =>
      rw [entryVisits, hkey, List.filterMap_append, ih, entryLeaves_leaf hkey]
      rfl
  | group field condition rest key hkey ihInner ih =>
      have hsubtrees : ∀ subtrees, condition.items? = some subtrees → ∀ index,
          (subtreesVisits key index subtrees).filterMap Visit.leaf? = subtreesLeaves subtrees := by
        intro subtrees hitems
        have hinner := ihInner subtrees hitems
        clear hitems
        induction subtrees with
        | nil => exact fun _ ↦ rfl
        | cons subtree others ihOthers =>
            intro index
            rw [subtreesVisits, subtreesLeaves, List.filterMap_append,
              ihOthers (fun entries hmem ↦ hinner entries (List.mem_cons_of_mem _ hmem))]
            congr 1
            cases subtree with
            | dict entries =>
                rw [subtreeVisits, leaves, filterMap_leaf?_under]
                exact hinner entries List.mem_cons_self
            | _ => rfl
      rw [entryVisits, hkey, List.filterMap_append, ih, entryLeaves, hkey]
      congr 1
      cases condition with
      | list subtrees => exact hsubtrees subtrees rfl 0
      | tuple subtrees => exact hsubtrees subtrees rfl 0
      | _ => rfl

/-! ## Entries that are reached -/

/-- An entry is reached from entries through lists of trees: each logical key is one of the entries
there, and each index is that of a tree in its list. -/
inductive Reaches : List (Value × Value) → Position → Value → Value → Prop where
  | entry {entries : List (Value × Value)} {field condition : Value}
      (h : (field, condition) ∈ entries) : Reaches entries [] field condition
  | inside {entries inner : List (Value × Value)} {field condition field' condition' : Value}
      {key : LogicalKey} {subtrees : List Value} {index : Nat} {position : Position}
      (hentry : (field, condition) ∈ entries) (hkey : logicalKey? field = some key)
      (hitems : condition.items? = some subtrees) (hinner : subtrees[index]? = some (.dict inner))
      (h : Reaches inner position field' condition') :
      Reaches entries ((key, index) :: position) field' condition'

/-- What may be found at an entry: its condition, or under a logical key a value that is no list, or
an element that is no tree. -/
inductive Finding.IsAt (field condition : Value) : Finding → Prop where
  | condition (h : logicalKey? field = none) : IsAt field condition (.condition field condition)
  | notList {key : LogicalKey} (hkey : logicalKey? field = some key)
      (h : condition.items? = none) : IsAt field condition (.misshapen key (notList key condition))
  | notElement {key : LogicalKey} {subtrees : List Value} {index : Nat} {subtree : Value}
      (hkey : logicalKey? field = some key) (hitems : condition.items? = some subtrees)
      (hsubtree : subtrees[index]? = some subtree) (h : ∀ entries, subtree ≠ .dict entries) :
      IsAt field condition (.misshapen key (notElement key index subtree))

theorem Finding.IsAt.field_eq {field condition : Value} {finding : Finding}
    (h : finding.IsAt field condition) : finding.field = field := by
  cases h with
  | condition h => rfl
  | notList hkey h => exact (logicalKey?_eq_some hkey).symm
  | notElement hkey hitems hsubtree h => exact (logicalKey?_eq_some hkey).symm

theorem Reaches.cons {entries : List (Value × Value)} {position : Position}
    {field condition : Value} (h : Reaches entries position field condition)
    (entry : Value × Value) : Reaches (entry :: entries) position field condition := by
  cases h with
  | entry h => exact .entry (List.mem_cons_of_mem _ h)
  | inside hentry hkey hitems hinner h =>
      exact .inside (List.mem_cons_of_mem _ hentry) hkey hitems hinner h

theorem exists_of_mem_subtreesVisits {key : LogicalKey} {subtrees : List Value} {v : Visit}
    {start : Nat} (h : v ∈ subtreesVisits key start subtrees) :
    ∃ index subtree, subtrees[index]? = some subtree ∧
      v ∈ subtreeVisits key (start + index) subtree := by
  induction subtrees generalizing start with
  | nil => cases h
  | cons subtree rest ih =>
      rcases List.mem_append.mp h with h | h
      · exact ⟨0, subtree, rfl, h⟩
      · obtain ⟨index, other, hother, hv⟩ := ih h
        exact ⟨index + 1, other, hother, by rwa [Nat.add_right_comm] at hv⟩

/-- Each visit is to an entry of the tree, at the place where that entry is. -/
theorem exists_reaches_of_mem_entryVisits {entries : List (Value × Value)} {v : Visit}
    (h : v ∈ entryVisits entries) :
    ∃ field condition, Reaches entries v.position field condition ∧
      v.finding.IsAt field condition := by
  induction entries using trees_induction generalizing v with
  | nil => cases h
  | leaf field condition rest hkey ih =>
      rw [entryVisits, hkey, List.mem_append] at h
      rcases h with h | h
      · obtain rfl := List.mem_singleton.mp h
        exact ⟨field, condition, .entry List.mem_cons_self, .condition hkey⟩
      · obtain ⟨field', condition', hreaches, hat⟩ := ih h
        exact ⟨field', condition', hreaches.cons _, hat⟩
  | group field condition rest key hkey ihInner ih =>
      rw [entryVisits, hkey, List.mem_append] at h
      have hsubtrees : ∀ subtrees, condition.items? = some subtrees →
          v ∈ subtreesVisits key 0 subtrees → ∃ field' condition',
            Reaches ((field, condition) :: rest) v.position field' condition' ∧
              v.finding.IsAt field' condition' := by
        intro subtrees hitems hv
        obtain ⟨index, subtree, hsubtree, hv⟩ := exists_of_mem_subtreesVisits hv
        rw [Nat.zero_add] at hv
        cases subtree with
        | dict inner =>
            obtain ⟨u, hu, rfl⟩ := List.mem_map.mp hv
            obtain ⟨field', condition', hreaches, hat⟩ :=
              ihInner subtrees hitems inner (List.mem_of_getElem? hsubtree) hu
            exact ⟨field', condition',
              .inside List.mem_cons_self hkey hitems hsubtree hreaches, hat⟩
        | _ =>
            obtain rfl := List.mem_singleton.mp hv
            exact ⟨field, condition, .entry List.mem_cons_self,
              .notElement hkey hitems hsubtree nofun⟩
      rcases h with h | h
      · cases condition with
        | list subtrees => exact hsubtrees subtrees rfl h
        | tuple subtrees => exact hsubtrees subtrees rfl h
        | _ =>
            obtain rfl := List.mem_singleton.mp h
            exact ⟨field, _, .entry List.mem_cons_self, .notList hkey rfl⟩
      · obtain ⟨field', condition', hreaches, hat⟩ := ih h
        exact ⟨field', condition', hreaches.cons _, hat⟩

end FilterTree

end Criteria
