import Criteria.Proofs.Checks
import Criteria.Proofs.Draws

/-!
# Where a tree fails

The path in a fault is put together on the way out of a tree: a list writes its index in front, and
a field writes itself in front of a path that starts at an index.  Only a path out of a list starts
that way, so whatever the fields are called, the path says where the entry stands.
-/

namespace Criteria

open Clause (Builder)
open FilterTree (Position positionText)

/-! ## Paths -/

theorem ConditionFault.position_some {path : String} (h : path ≠ "") (field : Value) :
    position field (some path) = .text path := by
  simp [position, given?, h]

theorem Fault.startsAtIndex_append (path : String) : startsAtIndex ("[" ++ path) = true := by
  rw [startsAtIndex, String.toList_append]
  rfl

theorem FilterTree.positionText_append_ne_empty (key : LogicalKey) (index : Nat) (rest : Position)
    (field : String) : positionText ((key, index) :: rest) ++ field ≠ "" := by
  simp [positionText, String.append_eq_empty_iff]

/-- The message of a fault that is reported for a name can be written if the path is a text. -/
theorem ConditionFault.raised_located {field path : String} {given : Option String}
    (h : position (.text field) given = .text path) (cause : ConditionFault)
    (chained : Option ConditionFault) :
    Fault.raised (.located (.text field) given cause chained) =
      .condition (.located (.text field) given cause chained) :=
  raised_of_hasMessage (by rw [hasMessage, h]; rfl)

/-- A fault of a condition alone keeps its cause at whatever position it is reported, and is raised
from it.  Its path is the position with the field behind it. -/
theorem Fault.atPosition_condition {cause : ConditionFault} (h : cause.IsElementary)
    (field : String) (position : Position) :
    ∃ path, Fault.atPosition (.text field) position (.condition cause) =
        .condition (.located (.text field) path cause (some cause)) ∧
      ConditionFault.position (.text field) path = .text (positionText position ++ field) := by
  induction position with
  | nil =>
      refine ⟨none, ?_, ?_⟩
      · cases cause with
        | located inner path cause chained => exact h.elim
        | _ => rfl
      · rw [positionText, String.empty_append]
        rfl
  | cons step rest ih =>
      obtain ⟨key, index⟩ := step
      obtain ⟨path, hfault, hpath⟩ := ih
      -- The path inside now starts at an index, so the key of the list is written in front of it.
      have hstarts : startsAtIndex ("[" ++ toString index ++ "]." ++ (positionText rest ++ field)) =
          true := by
        rw [String.append_assoc, String.append_assoc, startsAtIndex_append]
      have hposition : ∀ path : String, ConditionFault.position (.text field)
          (some ("[" ++ toString index ++ "]." ++ path)) =
            .text ("[" ++ toString index ++ "]." ++ path) := fun path ↦
        ConditionFault.position_some (by simp [String.append_eq_empty_iff]) _
      have hwhole : key.token ++ ("[" ++ toString index ++ "]." ++ (positionText rest ++ field)) =
          positionText ((key, index) :: rest) ++ field := by
        simp only [positionText, String.append_assoc]
      have hlast : ConditionFault.position (.text field)
          (some (positionText ((key, index) :: rest) ++ field)) =
            .text (positionText ((key, index) :: rest) ++ field) :=
        ConditionFault.position_some
          (FilterTree.positionText_append_ne_empty key index rest field) _
      refine ⟨some (positionText ((key, index) :: rest) ++ field), ?_, ?_⟩
      · rw [Fault.atPosition, hfault, Fault.atIndex, hpath,
          ConditionFault.raised_located (hposition _), Fault.atField, hposition]
        simp only [Value.toText, hstarts, if_true, hwhole]
        exact ConditionFault.raised_located hlast _ _
      · exact hlast

/-! ## Identifiers that are fresh -/

theorem IdSource.exists_number_of_mem_take {lead id : String} {next : Int} {count : Nat}
    (h : id ∈ (sequence lead next).take count) : ∃ k, next ≤ k ∧ id = lead ++ toString k := by
  induction count generalizing next with
  | zero => cases h
  | succ count ih =>
      rcases List.mem_cons.mp h with rfl | h
      · exact ⟨next, Int.le_refl next, rfl⟩
      · obtain ⟨k, hk, rfl⟩ := ih h
        exact ⟨k, by omega, rfl⟩

/-- The identifiers of a sequence are separate. -/
theorem IdSource.pairwise_areSeparate_sequence (lead : String) (next : Int) (count : Nat) :
    ((sequence lead next).take count).Pairwise AreSeparate := by
  induction count generalizing next with
  | zero => exact .nil
  | succ count ih =>
      refine .cons (fun id hid name hname hother ↦ ?_) (ih (next + 1))
      obtain ⟨k, hk, rfl⟩ := exists_number_of_mem_take hid
      have hnumber : next = k := hname.number_eq hother
      omega

theorem IdSource.isPlain_of_mem_take_sequence {lead id : String} (hlead : IsPlain lead.toList)
    {next : Int} {count : Nat} (h : id ∈ (sequence lead next).take count) : IsPlain id.toList := by
  obtain ⟨k, -, rfl⟩ := exists_number_of_mem_take h
  rw [String.toList_append]
  exact isPlain_append.mpr ⟨hlead, isPlain_toString k⟩

/-! ## Trees -/

namespace FilterTree

variable {registry : Registry} {base : Value}

theorem drawsOne_fragment {finding : Finding} {field condition : Value}
    (h : finding.IsAt field condition) : DrawsOne (finding.fragment registry base) := by
  cases h with
  | condition h => exact drawsOne_leafFragment registry base field condition
  | notList hkey h => exact drawsOne_throw trivial
  | notElement hkey hitems hsubtree h => exact drawsOne_throw trivial

/-- What a finding is rejected for: a condition because it is not admitted, and anything else by
itself. -/
def Finding.IsRejected (registry : Registry) : Finding → ConditionFault → Prop
  | condition _ value, cause => admission registry value = .error cause
  | misshapen _ fault, cause => fault = cause

/-- What the fault of a finding shows has a text: of a condition its keys, and of anything else
nothing but the types. -/
def Finding.IsShown : Finding → Prop
  | condition _ value => value.ShowsKeys
  | misshapen _ _ => True

section Rejected

variable {finding : Finding} {field condition : Value} {cause : ConditionFault}

theorem Finding.IsRejected.isElementary (h : finding.IsRejected registry cause)
    (hat : finding.IsAt field condition) : cause.IsElementary := by
  cases hat with
  | condition hkey => exact isElementary_of_admission h
  | notList hkey hitems =>
      cases h
      trivial
  | notElement hkey hitems hsubtree hne =>
      cases h
      trivial

theorem Finding.IsRejected.hasMessage (h : finding.IsRejected registry cause)
    (hat : finding.IsAt field condition) (hshown : finding.IsShown) : cause.hasMessage = true := by
  cases hat with
  | condition hkey => exact hasMessage_of_admission hshown h
  | notList hkey hitems =>
      cases h
      rfl
  | notElement hkey hitems hsubtree hne =>
      cases h
      rfl

end Rejected

/-- An entry with a name fails with a fault of its condition, unless its identifier has braces. -/
theorem exists_cause_of_fragment {finding : Finding} {field : String} {condition : Value}
    (hat : finding.IsAt (.text field) condition) {ids ids' : IdSource}
    (hids : IsPlain ids.current.toList) {fault : Fault}
    (h : finding.fragment registry base ids = .error fault ids') :
    ∃ cause, fault = .raised cause ∧ finding.IsRejected registry cause := by
  cases hat with
  | condition hkey =>
      obtain ⟨fieldAlias, halias, hcheck⟩ := exists_alias_of_text field base
      rw [Finding.fragment, leafFragment_of_resolveAlias halias] at h
      rcases compileFragment_eq_error_iff.mp h with
        ⟨cause, hrefused, -, -⟩ | ⟨-, ⟨cause, hadmission, rfl, -⟩ | ⟨a, -, hfragment, -⟩⟩
      · cases hcheck.symm.trans hrefused
      · exact ⟨cause, rfl, hadmission⟩
      · obtain ⟨f, hf⟩ := a.exists_fragment hids (.text fieldAlias)
        cases hf.symm.trans hfragment
  | notList hkey hitems =>
      cases h
      exact ⟨notList _ _, rfl, rfl⟩
  | notElement hkey hitems hsubtree hne =>
      cases h
      exact ⟨FilterTree.notElement _ _ _, rfl, rfl⟩

/-- The conditions that are visited are leaves of the tree. -/
theorem mem_entryLeaves_of_mem_entryVisits {entries : List (Value × Value)} {position : Position}
    {field condition : Value} (h : ⟨position, .condition field condition⟩ ∈ entryVisits entries) :
    (field, condition) ∈ entryLeaves entries := by
  rw [← filterMap_leaf?_entryVisits]
  exact List.mem_filterMap.mpr ⟨_, h, rfl⟩

theorem isText_field {entries : List (Value × Value)}
    (h : ∀ leaf ∈ entryLeaves entries, leaf.1.isText = true) {v : Visit}
    (hv : v ∈ entryVisits entries) : ∃ field, v.finding.field = .text field := by
  obtain ⟨position, finding⟩ := v
  cases finding with
  | condition field condition =>
      have hleaf := h _ (mem_entryLeaves_of_mem_entryVisits hv)
      cases field with
      | text field => exact ⟨field, rfl⟩
      | _ => exact absurd hleaf nofun
  | misshapen key fault => exact ⟨key.token, rfl⟩

theorem isShown_finding {entries : List (Value × Value)}
    (h : ∀ leaf ∈ entryLeaves entries, leaf.2.ShowsKeys) {v : Visit}
    (hv : v ∈ entryVisits entries) : v.finding.IsShown := by
  obtain ⟨position, finding⟩ := v
  cases finding with
  | condition field condition => exact h _ (mem_entryLeaves_of_mem_entryVisits hv)
  | misshapen key fault => trivial

/-- An empty builder accepts whatever is staged. -/
theorem applyEntries_eq_error {join : Value} {j : Join} {entries : List (Value × Value)}
    {ids ids' : IdSource} {b : Builder} {fault : Fault} (hjoin : Clause.joinOf join = .ok j)
    (h : FilterTree.apply registry base [] join (.dict entries) ⟨Builder.empty, ids⟩ =
      .error fault ⟨b, ids'⟩) :
    ∃ staged, applyEntries registry base [] j entries ⟨Builder.empty, ids⟩ =
      .error fault ⟨staged, ids'⟩ := by
  cases hrun : applyEntries registry base [] j entries ⟨Builder.empty, ids⟩ with
  | error other s =>
      simp only [FilterTree.apply, hjoin, stage, applyTree, hrun, EStateM.Result.error.injEq,
        Composition.mk.injEq] at h
      obtain ⟨rfl, -, rfl⟩ := h
      exact ⟨s.sink, rfl⟩
  | ok _ s =>
      have hstage : stage registry base j (.dict entries) ids = (.ok s.sink, s.ids) := by
        simp only [stage, applyTree, hrun]
      obtain ⟨_, items, ⟨⟩, hitems, hbind, hsink⟩ := stage_eq_ok_iff.mp hstage
      have hreplay : Clause.replay [] items Builder.empty =
          .ok () (Builder.empty.extend [] items) :=
        Clause.Builder.replay_eq_ok_iff.mpr ⟨hbind, rfl⟩
      have hok := apply_eq_ok_iff.mpr ⟨j, entries, items, hjoin, rfl, hitems, hbind, hreplay⟩
      rw [h] at hok
      cases hok

/-- The first entry of a tree of named fields that cannot be compiled is the one that is reported,
at its place. -/
theorem exists_first_fault {join : Value} {j : Join} {entries : List (Value × Value)}
    {ids ids' : IdSource} {b : Builder} {fault : Fault} (hjoin : Clause.joinOf join = .ok j)
    (hfields : ∀ leaf ∈ entryLeaves entries, leaf.1.isText = true)
    (hplain : ∀ id ∈ ids.take (entryVisits entries).length, IsPlain id.toList)
    (hfresh : (ids.take (entryVisits entries).length).Pairwise AreSeparate)
    (h : FilterTree.apply registry base [] join (.dict entries) ⟨Builder.empty, ids⟩ =
      .error fault ⟨b, ids'⟩) :
    ∃ (done rest : List Visit) (v : Visit) (fragments : List Fragment) (middle : IdSource)
      (field : String) (condition : Value) (cause : ConditionFault),
      entryVisits entries = done ++ v :: rest ∧
      done.mapM (fun u ↦ u.finding.fragment registry base) ids = .ok fragments middle ∧
      Reaches entries v.position (.text field) condition ∧
      v.finding.IsAt (.text field) condition ∧
      v.finding.fragment registry base middle = .error (.raised cause) ids' ∧
      v.finding.IsRejected registry cause ∧
      fault = Fault.atPosition (.text field) v.position (.raised cause) := by
  obtain ⟨staged, hrun⟩ := applyEntries_eq_error hjoin h
  have hvisits := bindsAs_applyEntries registry base [] j entries ⟨Builder.empty, ids⟩
  rw [hrun] at hvisits
  have hcalls : ∀ v ∈ entryVisits entries, DrawsOne (v.finding.fragment registry base) := by
    intro v hv
    obtain ⟨_, _, -, hat⟩ := exists_reaches_of_mem_entryVisits hv
    exact drawsOne_fragment hat
  have hstart : IsUnused [] (entryVisits entries).length ids := ⟨hfresh, nofun⟩
  rcases forM_bindFragment (fun v ↦ Fault.atPosition v.finding.field v.position) hcalls hstart with
    ⟨_, _, -, hok⟩ |
    ⟨done, v, rest, fragments, middle, reported, last, hsplit, hdone, hcurrent, hfail, herror⟩
  · cases hvisits.trans hok
  · have hv : v ∈ entryVisits entries := hsplit ▸ by simp
    obtain ⟨field, hfield⟩ := isText_field hfields hv
    obtain ⟨_, condition, hreaches, hat⟩ := exists_reaches_of_mem_entryVisits hv
    obtain rfl : _ = Value.text field := hat.field_eq.symm.trans hfield
    obtain ⟨cause, rfl, hrejected⟩ := exists_cause_of_fragment hat (hplain _ hcurrent) hfail
    obtain ⟨rfl, -, rfl⟩ : fault = _ ∧ _ ∧ ids' = last := by
      simpa [names] using hvisits.trans herror
    exact ⟨done, rest, v, fragments, middle, field, condition, cause, hsplit, hdone, hreaches, hat,
      hfail, hrejected, by rw [hfield]⟩

/-- A tree of named fields and operators is rejected for the first of its entries, in depth-first
order, that cannot be compiled.  The fault has the key of that entry, the path of logical keys and
indices to it, and as its cause the very fault of the entry, which is never one with a place of its
own and which it is raised from. -/
theorem fault_locates_first_entry {join : Value} {j : Join} {entries : List (Value × Value)}
    {ids ids' : IdSource} {b : Builder} {fault : Fault} (hjoin : Clause.joinOf join = .ok j)
    (hfields : ∀ leaf ∈ entryLeaves entries, leaf.1.isText = true)
    (hkeys : ∀ leaf ∈ entryLeaves entries, leaf.2.ShowsKeys)
    (hplain : ∀ id ∈ ids.take (entryVisits entries).length, IsPlain id.toList)
    (hfresh : (ids.take (entryVisits entries).length).Pairwise AreSeparate)
    (h : FilterTree.apply registry base [] join (.dict entries) ⟨Builder.empty, ids⟩ =
      .error fault ⟨b, ids'⟩) :
    ∃ (done rest : List Visit) (v : Visit) (fragments : List Fragment) (middle : IdSource)
      (field : String) (condition : Value) (path : Option String) (cause : ConditionFault)
      (chained : Option ConditionFault),
      entryVisits entries = done ++ v :: rest ∧
      done.mapM (fun u ↦ u.finding.fragment registry base) ids = .ok fragments middle ∧
      Reaches entries v.position (.text field) condition ∧
      v.finding.IsAt (.text field) condition ∧
      v.finding.fragment registry base middle = .error (.condition cause) ids' ∧
      fault = .condition (.located (.text field) path cause chained) ∧
      ConditionFault.position (.text field) path = .text (positionText v.position ++ field) ∧
      (∀ inner outer other origin, cause ≠ .located inner outer other origin) ∧
      chained = some cause := by
  obtain ⟨done, rest, v, fragments, middle, field, condition, cause, hsplit, hdone, hreaches, hat,
    hfail, hrejected, rfl⟩ := exists_first_fault hjoin hfields hplain hfresh h
  have hv : v ∈ entryVisits entries := hsplit ▸ by simp
  have helementary := hrejected.isElementary hat
  have hmessage := hrejected.hasMessage hat (isShown_finding hkeys hv)
  rw [ConditionFault.raised_of_hasMessage hmessage] at hfail ⊢
  obtain ⟨path, hpath, hposition⟩ := Fault.atPosition_condition helementary field v.position
  refine ⟨done, rest, v, fragments, middle, field, condition, path, cause, some cause, hsplit,
    hdone, hreaches, hat, hfail, hpath, hposition, ?_, rfl⟩
  rintro inner outer other origin rfl
  exact helementary

/-- A field whose name starts like an index, two lists down. -/
theorem fault_locates_first_entry_nested :
    ∃ (entries : List (Value × Value)) (b : Builder) (ids' : IdSource) (v : Visit)
      (condition : Value) (cause : ConditionFault),
      entries = [(.text "name", .text "Ann"), (.text "$and", .list [.dict [], .dict [(.text "$or",
        .tuple [.dict [(.text "[age", .dict [(.text "$between", .list [.int 18])])]])]])] ∧
      (∀ leaf ∈ entryLeaves entries, leaf.1.isText = true) ∧
      (∀ leaf ∈ entryLeaves entries, leaf.2.ShowsKeys) ∧
      FilterTree.apply Registry.full (.text "e") [] (.text "AND") (.dict entries)
        ⟨Builder.empty, .standard⟩ =
          .error (.condition (.located (.text "[age") (some "$and[1].$or[0].[age") cause
            (some cause))) ⟨b, ids'⟩ ∧ cause.code = "INVALID_OPERAND_SHAPE" ∧
      v ∈ entryVisits entries ∧ Reaches entries v.position (.text "[age") condition ∧
      positionText v.position ++ "[age" = "$and[1].$or[0].[age" := by
  obtain ⟨entries, b, ids', cause, hentries, hfields, hkeys, hrun, hcode⟩ :
      ∃ (entries : List (Value × Value)) (b : Builder) (ids' : IdSource) (cause : ConditionFault),
        entries = [(.text "name", .text "Ann"), (.text "$and", .list [.dict [], .dict [(.text "$or",
          .tuple [.dict [(.text "[age", .dict [(.text "$between", .list [.int 18])])]])]])] ∧
        (∀ leaf ∈ entryLeaves entries, leaf.1.isText = true) ∧
        (∀ leaf ∈ entryLeaves entries, leaf.2.ShowsKeys) ∧
        FilterTree.apply Registry.full (.text "e") [] (.text "AND") (.dict entries)
          ⟨Builder.empty, .standard⟩ =
            .error (.condition (.located (.text "[age") (some "$and[1].$or[0].[age") cause
              (some cause))) ⟨b, ids'⟩ ∧ cause.code = "INVALID_OPERAND_SHAPE" :=
    ⟨_, _, _, _, rfl, by decide,
      List.forall_mem_cons.mpr ⟨nofun, List.forall_mem_singleton.mpr (by rintro _ ⟨⟩; decide)⟩,
      rfl, rfl⟩
  obtain ⟨done, rest, v, fragments, middle, field, condition, path, _, _, hsplit, -, hreaches, -,
    -, hfault, hposition, -⟩ := fault_locates_first_entry rfl hfields hkeys
      (fun id hid ↦ IdSource.isPlain_of_mem_take_sequence (by decide) hid)
      (IdSource.pairwise_areSeparate_sequence "p" 1 _) hrun
  cases hfault
  refine ⟨entries, b, ids', v, condition, cause, hentries, hfields, hkeys, hrun, hcode, ?_,
    hreaches, ?_⟩
  · rw [hsplit]
    simp
  · exact (Value.text.inj hposition).symm

end FilterTree

end Criteria
