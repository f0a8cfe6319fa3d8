import Criteria.Proofs.Replay
import Criteria.Proofs.Visits

/-!
# Names that entries bind

What a tree does to the names that are bound, to the identifiers and to the faults that are
reported, it does visit by visit, whatever its groups are.
-/

namespace Criteria

open Clause (Path Builder Item)

namespace Composing

variable {σ α β : Type}

theorem reporting_bind (report : Fault → Fault) (x : Composing σ α) (f : α → Composing σ β) :
    reporting report (x >>= f) = reporting report x >>= fun a ↦ reporting report (f a) := by
  funext s
  change reporting report (EStateM.bind x f) s = EStateM.bind (reporting report x) _ s
  simp only [reporting, EStateM.bind]
  cases x s <;> rfl

theorem reporting_reporting (report other : Fault → Fault) (x : Composing σ α) :
    reporting report (reporting other x) = reporting (fun fault ↦ report (other fault)) x := by
  funext s
  simp only [reporting]
  cases x s <;> rfl

theorem reporting_forM (report : Fault → Fault) (f : β → Composing σ Unit) (list : List β) :
    reporting report (forM list f) = forM list fun b ↦ reporting report (f b) := by
  induction list with
  | nil => rfl
  | cons b rest ih => rw [List.forM_cons, List.forM_cons, reporting_bind, ih]

end Composing

/-- A fault as it is reported for a field at a position. -/
def Fault.atPosition (field : Value) : FilterTree.Position → Fault → Fault
  | [], fault => fault.atField field
  | (key, index) :: rest, fault =>
    ((fault.atPosition field rest).atIndex index).atField (.text key.token)

namespace FilterTree

variable (registry : Registry) (base : Value)

def Finding.fragment : Finding → Compiling Fragment
  | condition field value => leafFragment registry base field value
  | misshapen _ fault => throw (.condition fault)

/-! ## Names alone -/

def bindNames (parameters : Parameters) : EStateM Fault Parameters Unit := fun bound ↦
  match (Builder.mk [] bound).bind parameters with
  | .ok b => .ok () b.bound
  | .error fault => .error fault bound

def bindFragment (report : Fault → Fault) (fragment : Compiling Fragment) :
    Composing Parameters Unit :=
  Composing.reporting report do
    let f ← Composing.onIds fragment
    Composing.onSink (bindNames f.parameters)

def Visit.perform (v : Visit) : Composing Parameters Unit :=
  bindFragment (Fault.atPosition v.finding.field v.position) (v.finding.fragment registry base)

/-- The outcome of a step on a builder, of which only the names are kept. -/
def names {α : Type} : EStateM.Result Fault (Composition Builder) α →
    EStateM.Result Fault (Composition Parameters) α
  | .ok a s => .ok a ⟨s.sink.bound, s.ids⟩
  | .error fault s => .error fault ⟨s.sink.bound, s.ids⟩

def BindsAs {α : Type} (x : Composing Builder α) (y : Composing Parameters α) : Prop :=
  ∀ s, names (x s) = y ⟨s.sink.bound, s.ids⟩

namespace BindsAs

variable {α β : Type}

theorem bind {x : Composing Builder α} {y : Composing Parameters α} {f : α → Composing Builder β}
    {g : α → Composing Parameters β} (h : BindsAs x y) (hnext : ∀ a, BindsAs (f a) (g a)) :
    BindsAs (x >>= f) (y >>= g) := by
  intro s
  have hs := h s
  change names (EStateM.bind x f s) = EStateM.bind y g _
  rw [EStateM.bind, EStateM.bind, ← hs]
  cases x s with
  | error fault t => rfl
  | ok a t => exact hnext a t

theorem reporting {x : Composing Builder α} {y : Composing Parameters α} (h : BindsAs x y)
    (report : Fault → Fault) :
    BindsAs (Composing.reporting report x) (Composing.reporting report y) := by
  intro s
  have hs := h s
  rw [Composing.reporting, Composing.reporting, ← hs]
  cases x s <;> rfl

theorem onIds (step : Compiling α) : BindsAs (Composing.onIds step) (Composing.onIds step) := by
  intro s
  simp only [Composing.onIds]
  cases step s.ids <;> rfl

theorem addTo (path : Path) (join : Join) (f : Fragment) :
    BindsAs (Composing.onSink (Clause.addTo path join f.query f.parameters))
      (Composing.onSink (bindNames f.parameters)) := by
  intro s
  have hadd : Clause.Sink.addClause path join f.query f.parameters s.sink =
      Builder.addClause path join f.query f.parameters s.sink := rfl
  have hconflict : (Builder.mk [] s.sink.bound).conflict? f.parameters =
      s.sink.conflict? f.parameters := rfl
  simp only [Composing.onSink, Clause.addTo, hadd, Builder.addClause, bindNames, Builder.bind,
    hconflict]
  cases s.sink.conflict? f.parameters <;> rfl

theorem openIn {path : Path} {join : Join} {f : Path → Composing Builder α}
    {y : Composing Parameters α} (h : ∀ inner, BindsAs (f inner) y) :
    BindsAs (Composing.onSink (Clause.openIn path join) >>= f) y :=
  fun s ↦ h (Item.openAt path join s.sink.items).1
    ⟨⟨(Item.openAt path join s.sink.items).2, s.sink.bound⟩, s.ids⟩

end BindsAs

theorem leafFragment_of_resolveAlias {registry : Registry} {base field : Value}
    {fieldAlias : String} (h : resolveAlias field base = .ok fieldAlias) (condition : Value) :
    leafFragment registry base field condition =
      compileFragment registry (.text fieldAlias) condition := by
  funext ids
  simp only [leafFragment, h]

theorem leafFragment_of_resolveAlias_error {registry : Registry} {base field : Value}
    {fault : Fault} (h : resolveAlias field base = .error fault) (condition : Value) :
    leafFragment registry base field condition = throw fault := by
  funext ids
  simp only [leafFragment, h, throw_apply]

theorem bindsAs_applyLeaf (path : Path) (join : Join) (field condition : Value) :
    BindsAs (applyLeaf registry base path join field condition)
      (Composing.onIds (leafFragment registry base field condition) >>= fun f ↦
        Composing.onSink (bindNames f.parameters)) := by
  cases halias : resolveAlias field base with
  | error fault =>
      rw [applyLeaf, halias, leafFragment_of_resolveAlias_error halias]
      exact fun _ ↦ rfl
  | ok fieldAlias =>
      rw [applyLeaf, halias, leafFragment_of_resolveAlias halias]
      exact (BindsAs.onIds _).bind fun f ↦ BindsAs.addTo path join f

theorem forM_singleton {m : Type → Type} [Monad m] [LawfulMonad m] {α : Type} (a : α)
    (f : α → m PUnit) : forM [a] f = f a := by
  rw [List.forM_cons]
  simp

variable {registry base}

/-- A visit in a list is reported like a visit to the tree it is in, and then for the list. -/
theorem forM_under (key : LogicalKey) (index : Nat) (visits : List Visit) :
    forM (visits.map (Visit.under key index)) (Visit.perform registry base) =
      Composing.reporting (Fault.atField (.text key.token)) (Composing.reporting
        (Fault.atIndex index) (forM visits (Visit.perform registry base))) := by
  rw [Composing.reporting_reporting, Composing.reporting_forM, List.forM_map]
  congr 1
  funext v
  rw [Visit.perform, Visit.perform, bindFragment, bindFragment, Composing.reporting_reporting]
  rfl

theorem bindsAs_misshapen (key : LogicalKey) (fault : ConditionFault) :
    BindsAs (Composing.reporting (Fault.atField (.text key.token)) (throw (.condition fault)))
      (forM [⟨[], .misshapen key fault⟩] (Visit.perform registry base)) := by
  rw [forM_singleton]
  exact fun _ ↦ rfl

theorem bindsAs_applySubtrees {subtrees : List Value}
    (h : ∀ entries, Value.dict entries ∈ subtrees → ∀ (path : Path) (join : Join),
      BindsAs (applyEntries registry base path join entries)
        (forM (entryVisits entries) (Visit.perform registry base)))
    (path : Path) (key : LogicalKey) (index : Nat) :
    BindsAs (Composing.reporting (Fault.atField (.text key.token))
        (applySubtrees registry base path key index subtrees))
      (forM (subtreesVisits key index subtrees) (Visit.perform registry base)) := by
  induction subtrees generalizing index with
  | nil => exact fun _ ↦ rfl
  | cons subtree rest ih =>
      have hrest := ih (fun entries hmem ↦ h entries (List.mem_cons_of_mem _ hmem)) (index + 1)
      rw [applySubtrees, subtreesVisits, List.forM_append, Composing.reporting_bind]
      apply BindsAs.bind _ fun _ ↦ hrest
      cases subtree with
      | dict entries =>
          rw [applySubtree, subtreeVisits, forM_under]
          exact ((h entries List.mem_cons_self path key.join).reporting _).reporting _
      | _ => exact bindsAs_misshapen key _

theorem bindsAs_applyGroup {condition : Value}
    (h : ∀ subtrees, condition.items? = some subtrees → ∀ entries, Value.dict entries ∈ subtrees →
      ∀ (path : Path) (join : Join), BindsAs (applyEntries registry base path join entries)
        (forM (entryVisits entries) (Visit.perform registry base)))
    (path : Path) (join : Join) (key : LogicalKey) :
    BindsAs (Composing.reporting (Fault.atField (.text key.token))
        (applyGroup registry base path join key condition))
      (forM (groupVisits key condition) (Visit.perform registry base)) := by
  cases condition with
  | list subtrees =>
      exact BindsAs.openIn fun inner ↦ bindsAs_applySubtrees (h subtrees rfl) inner key 0
  | tuple subtrees =>
      exact BindsAs.openIn fun inner ↦ bindsAs_applySubtrees (h subtrees rfl) inner key 0
  | _ => exact bindsAs_misshapen key _

/-- Composing entries into a builder does to the names what the visits to the entries do, one after
the other. -/
theorem bindsAs_applyEntries (registry : Registry) (base : Value) (path : Path) (join : Join)
    (entries : List (Value × Value)) :
    BindsAs (applyEntries registry base path join entries)
      (forM (entryVisits entries) (Visit.perform registry base)) := by
  induction entries using trees_induction generalizing path join with
  | nil => exact fun _ ↦ rfl
  | leaf field condition rest hkey ih =>
      rw [applyEntries, entryVisits, List.forM_append, hkey]
      refine BindsAs.bind ?_ fun _ ↦ ih path join
      rw [forM_singleton]
      exact (bindsAs_applyLeaf registry base path join field condition).reporting _
  | group field condition rest key hkey ihInner ih =>
      rw [applyEntries, entryVisits, List.forM_append, hkey, logicalKey?_eq_some hkey]
      refine BindsAs.bind ?_ fun _ ↦ ih path join
      exact bindsAs_applyGroup ihInner path join key

end FilterTree

end Criteria
