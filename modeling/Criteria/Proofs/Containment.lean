import Mathlib.Logic.Relation
import Criteria.Memory.Evaluator
import Criteria.Proofs.Quantities

/-!
# Containment between documents

One document is contained in another when its parts are found there, kind by kind; a single value is
also contained in a list that holds it, but only at the top.  The evaluation finds all that is
contained in this sense.  It finds more in two cases only: where a truth value meets the number that
it counts as, and where a list further down meets a single value that it holds.
-/

namespace Criteria.Memory

open Value (entriesOf IsJson)
open Relation (ReflTransGen TransGen)

/-! ## What containment is -/

/-- What a value without parts is.  Numbers are the rationals that they stand for, and a truth value
is not a number. -/
inductive Single where
  | null
  | truth (b : Bool)
  | number (q : ℚ)
  | text (s : String)

def single? : Value → Option Single
  | .null => some .null
  | .bool b => some (.truth b)
  | .text s => some (.text s)
  | v => v.number?.map .number

def SameSingle (v w : Value) : Prop := ∃ s, single? v = some s ∧ single? w = some s

/-- A document that holds all that another one of its kind does: every item has a partner in the
list, and every member has one of its name in the object. -/
inductive Covers : Value → Value → Prop where
  | single {v w : Value} (h : SameSingle v w) : Covers v w
  | list {held items : List Value} (partner : Value → Value)
      (hheld : ∀ item ∈ items, partner item ∈ held)
      (h : ∀ item ∈ items, Covers (partner item) item) : Covers (.list held) (.list items)
  | dict {held members : List (String × Value)} (partner : String × Value → Value)
      (hheld : ∀ m ∈ members, (m.1, partner m) ∈ held)
      (h : ∀ m ∈ members, Covers (partner m) m.2) :
      Covers (.dict (entriesOf held)) (.dict (entriesOf members))

/-- A list with an item that is in some relation to a value. -/
def Holds (related : Value → Value → Prop) (haystack needle : Value) : Prop :=
  ∃ held, haystack = .list held ∧ ∃ v ∈ held, related v needle

/-- Containment of one document in another.  A list contains a single value that it holds. -/
def Includes (haystack needle : Value) : Prop :=
  Covers haystack needle ∨ Holds SameSingle haystack needle

/-- A truth value and the number that it counts as, in either order. -/
def Mixed (v w : Value) : Prop :=
  ∃ b : Bool, (single? v = some (.truth b) ∧ single? w = some (.number b.toNat)) ∨
    (single? w = some (.truth b) ∧ single? v = some (.number b.toNat))

/-- The parts of two documents that meet: any two items of two lists, and the members of two objects
that have one name. -/
inductive Meet : Value × Value → Value × Value → Prop where
  | items {held items : List Value} {v w : Value} (hv : v ∈ held) (hw : w ∈ items) :
      Meet (.list held, .list items) (v, w)
  | members {held members : List (String × Value)} {name : String} {v w : Value}
      (hv : (name, v) ∈ held) (hw : (name, w) ∈ members) :
      Meet (.dict (entriesOf held), .dict (entriesOf members)) (v, w)

/-- A truth value that meets the number that it counts as, by itself or as an item of a list. -/
def Confuses (v w : Value) : Prop := Mixed v w ∨ Holds Mixed v w

/-- Two documents in which a truth value meets the number that it counts as, or in which a list
below the top meets a single value that it holds. -/
def Misleads (haystack needle : Value) : Prop :=
  (∃ p, ReflTransGen Meet (haystack, needle) p ∧ Confuses p.1 p.2) ∨
    ∃ p, TransGen Meet (haystack, needle) p ∧ Holds SameSingle p.1 p.2

/-! ## Cases of covering -/

theorem isContainer_of_single? {v : Value} {s : Single} (h : single? v = some s) :
    isContainer v = false := by
  cases v with
  | list items => cases h
  | dict entries => cases h
  | _ => rfl

theorem covers_list_iff {haystack : Value} {items : List Value} :
    Covers haystack (.list items) ↔
      ∃ held, haystack = .list held ∧ ∀ item ∈ items, ∃ v ∈ held, Covers v item := by
  constructor
  · intro h
    cases h with
    | single h =>
        obtain ⟨s, -, hs⟩ := h
        cases hs
    | list partner hheld h =>
        exact ⟨_, rfl, fun item hitem ↦ ⟨partner item, hheld item hitem, h item hitem⟩⟩
  · rintro ⟨held, rfl, h⟩
    choose! partner hheld hcovers using h
    exact .list partner hheld hcovers

theorem covers_dict_iff {haystack : Value} {members : List (String × Value)} :
    Covers haystack (.dict (entriesOf members)) ↔
      ∃ held, haystack = .dict (entriesOf held) ∧
        ∀ m ∈ members, ∃ v, (m.1, v) ∈ held ∧ Covers v m.2 := by
  constructor
  · intro h
    generalize hneedle : Value.dict (entriesOf members) = needle at h
    cases h with
    | single h =>
        obtain ⟨s, -, hs⟩ := h
        cases hneedle ▸ hs
    | list => cases hneedle
    | dict partner hheld h =>
        obtain rfl := Value.entriesOf_inj (Value.dict.inj hneedle)
        exact ⟨_, rfl, fun m hm ↦ ⟨partner m, hheld m hm, h m hm⟩⟩
  · rintro ⟨held, rfl, h⟩
    choose! partner hheld hcovers using h
    exact .dict partner hheld hcovers

theorem covers_single_iff {haystack needle : Value} {s : Single} (h : single? needle = some s) :
    Covers haystack needle ↔ SameSingle haystack needle := by
  refine ⟨fun hcovers ↦ ?_, .single⟩
  cases hcovers with
  | single hsame => exact hsame
  | list => cases h
  | dict => cases h

/-! ## Single values in the evaluation -/

/-- What a single value counts as when values are compared. -/
def Single.counted : Single → Single
  | truth b => number b.toNat
  | s => s

theorem count?_eq_some_iff {v : Value} {q : ℚ} :
    v.count? = some q ↔ ∃ s, single? v = some s ∧ s.counted = .number q := by
  have hnumber : ∀ w : Value, w.count? = w.number? → single? w = w.number?.map .number →
      (w.count? = some q ↔ ∃ s, single? w = some s ∧ s.counted = .number q) := by
    intro w hcount hsingle
    rw [hcount, hsingle]
    cases w.number? <;> simp [Single.counted]
  cases v with
  | bool b => simp [Value.count?, single?, Single.counted]
  | null => simp [Value.count?, Value.number?, single?, Single.counted]
  | text s => simp [Value.count?, Value.number?, single?, Single.counted]
  | _ => exact hnumber _ rfl rfl

/-- A single value equals what counts as the same. -/
theorem equality_single_iff {v w : Value} (hv : v.IsJson) (hw : w.IsJson) {s : Single}
    (hs : single? v = some s) :
    v.equality w = .yes ↔ ∃ t, single? w = some t ∧ t.counted = s.counted := by
  have hcounts : ∀ q, v.count? = some q → s.counted = .number q →
      (v.equality w = .yes ↔ ∃ t, single? w = some t ∧ t.counted = s.counted) := by
    intro q hcount hcounted
    rw [hv.isWritable.equality_eq_yes_iff_count? hw.isWritable hcount, count?_eq_some_iff, hcounted]
  cases hv with
  | null =>
      obtain rfl := Option.some.inj hs
      cases hw <;> simp [Value.equality, Value.isNull, single?, Value.number?, Single.counted,
        Verdict.ofBool]
  | bool b =>
      obtain rfl := Option.some.inj hs
      exact hcounts _ rfl rfl
  | int n =>
      obtain rfl := Option.some.inj hs
      exact hcounts _ rfl rfl
  | float _ negative =>
      obtain rfl := Option.some.inj hs
      exact hcounts _ rfl rfl
  | text s =>
      obtain rfl := Option.some.inj hs
      cases hw with
      | text t =>
          rw [Value.equality, Verdict.ofBool_eq_yes_iff, beq_iff_eq]
          simpa [single?, Single.counted] using eq_comm
      | _ => simp [Value.equality, single?, Value.number?, Single.counted]
  | list _ => cases hs
  | dict _ _ => cases hs

theorem exists_single? {v : Value} (h : v.IsJson) (hplain : isContainer v = false) :
    ∃ s, single? v = some s := by
  cases h with
  | list _ => cases hplain
  | dict _ _ => cases hplain
  | _ => exact ⟨_, rfl⟩

theorem equality_eq_no_of_isContainer {v w : Value} (hv : isContainer v = true)
    (hw : isContainer w = false) : v.equality w = .no := by
  cases v with
  | list items => cases w <;> first | rfl | cases hw
  | dict entries => cases w <;> first | rfl | cases hw
  | _ => cases hv

/-- A value equals a single value when they are the same, or a truth value and its number. -/
theorem equality_eq_yes_iff {v w : Value} (hv : v.IsJson) (hw : w.IsJson)
    (hsingle : isContainer w = false) : v.equality w = .yes ↔ SameSingle v w ∨ Mixed v w := by
  obtain ⟨t, ht⟩ := exists_single? hw hsingle
  cases hplain : isContainer v with
  | true =>
      rw [equality_eq_no_of_isContainer hplain hsingle]
      refine iff_of_false nofun ?_
      rintro (⟨s, hs, -⟩ | ⟨b, ⟨hs, -⟩ | ⟨-, hs⟩⟩)
      all_goals
        rw [isContainer_of_single? hs] at hplain
        cases hplain
  | false =>
      obtain ⟨s, hs⟩ := exists_single? hv hplain
      rw [equality_single_iff hv hw hs, SameSingle, Mixed, hs, ht]
      have htruth : ∀ b c : Bool, b.toNat = c.toNat ↔ b = c := by decide
      cases s <;> cases t <;> simp [Single.counted, eq_comm, htruth]

/-! ## Cases of the evaluation -/

theorem contains_dict_iff {held members : List (String × Value)}
    (hheld : (held.map (·.1)).Nodup) (hmembers : (members.map (·.1)).Nodup) :
    contains (.dict (entriesOf held)) (.dict (entriesOf members)) = .yes ↔
      ∀ m ∈ members, ∃ v, (m.1, v) ∈ held ∧ contains v m.2 = .yes := by
  rw [contains_entries_iff (Value.hasDistinctKeys_entriesOf hheld)
    (Value.hasDistinctKeys_entriesOf hmembers).keys]
  exact List.forall_mem_map.trans (forall₂_congr fun m _ ↦
    Value.exists_mem_entriesOf_iff fun v ↦ contains v m.2 = .yes)

theorem contains_of_isContainer_eq_false {haystack needle : Value}
    (h : isContainer needle = false) :
    contains haystack needle = containsPlain haystack needle := by
  cases needle with
  | list items => cases h
  | dict entries => cases h
  | _ => rfl

/-- A list contains a single value when an item equals it, and anything else when it equals it
itself. -/
theorem contains_single_iff {haystack needle : Value} (hh : haystack.IsJson)
    (hn : needle.IsJson) (hsingle : isContainer needle = false) :
    contains haystack needle = .yes ↔ (SameSingle haystack needle ∨ Mixed haystack needle) ∨
      Holds SameSingle haystack needle ∨ Holds Mixed haystack needle := by
  have hequal := equality_eq_yes_iff hh hn hsingle
  rw [contains_of_isContainer_eq_false hsingle]
  cases hh with
  | @list held hheld =>
      have hplain : (Value.list held).equality needle ≠ .yes := by
        rw [equality_eq_no_of_isContainer rfl hsingle]
        exact nofun
      rw [or_iff_right (mt hequal.mpr hplain), containsPlain, hsingle, if_neg Bool.false_ne_true,
        membership_eq_any fun v hv ↦ (hheld v hv).isRegular,
        Verdict.any_eq_yes_iff (List.forall_mem_map.mpr fun v hv ↦
          (hheld v hv).isRegular.equality_ne_signals hn.isRegular), List.mem_map]
      constructor
      · rintro ⟨v, hv, h⟩
        rcases (equality_eq_yes_iff (hheld v hv) hn hsingle).mp h with hsame | hmixed
        · exact Or.inl ⟨_, rfl, v, hv, hsame⟩
        · exact Or.inr ⟨_, rfl, v, hv, hmixed⟩
      · rintro (⟨_, ⟨⟩, v, hv, h⟩ | ⟨_, ⟨⟩, v, hv, h⟩)
        · exact ⟨v, hv, (equality_eq_yes_iff (hheld v hv) hn hsingle).mpr (Or.inl h)⟩
        · exact ⟨v, hv, (equality_eq_yes_iff (hheld v hv) hn hsingle).mpr (Or.inr h)⟩
  | _ =>
      refine hequal.trans (or_iff_left ?_).symm
      rintro (⟨_, ⟨⟩, -⟩ | ⟨_, ⟨⟩, -⟩)

theorem exists_list_of_contains {haystack : Value} {items : List Value} (hh : haystack.IsJson)
    (h : contains haystack (.list items) = .yes) : ∃ held, haystack = .list held := by
  cases hh with
  | list _ => exact ⟨_, rfl⟩
  | _ => simp [contains, containsPlain, Value.equality, Value.isNull, Value.sameQuantity,
      Value.quantity?, Verdict.ofBool] at h

theorem exists_dict_of_contains {haystack : Value} {entries : List (Value × Value)}
    (hh : haystack.IsJson) (h : contains haystack (.dict entries) = .yes) :
    ∃ held, haystack = .dict (entriesOf held) := by
  cases hh with
  | dict _ _ => exact ⟨_, rfl⟩
  | _ => simp [contains, containsPlain, isContainer, Value.equality, Value.isNull,
      Value.sameQuantity, Value.quantity?, Verdict.ofBool] at h

/-- Induction on documents by their parts. -/
theorem isJson_induction {motive : ∀ v : Value, v.IsJson → Prop}
    (single : ∀ v (h : v.IsJson), isContainer v = false → motive v h)
    (list : ∀ items (h : ∀ v ∈ items, v.IsJson), (∀ v (hv : v ∈ items), motive v (h v hv)) →
      motive (.list items) (.list h))
    (dict : ∀ members hnames (h : ∀ m ∈ members, m.2.IsJson),
      (∀ m (hm : m ∈ members), motive m.2 (h m hm)) →
      motive (.dict (entriesOf members)) (.dict hnames h))
    {v : Value} (h : v.IsJson) : motive v h := by
  induction h with
  | null => exact single _ .null rfl
  | bool b => exact single _ (.bool b) rfl
  | int n => exact single _ (.int n) rfl
  | float hnormal negative => exact single _ (.float hnormal negative) rfl
  | text s => exact single _ (.text s) rfl
  | list hitems ih => exact list _ hitems ih
  | dict hnames hmembers ih => exact dict _ hnames hmembers ih

/-! ## Evaluation and containment -/

/-- What is covered is found. -/
theorem contains_of_covers {haystack needle : Value} (hh : haystack.IsJson) (hn : needle.IsJson)
    (h : Covers haystack needle) : contains haystack needle = .yes := by
  induction hn using isJson_induction generalizing haystack with
  | single needle hn hsingle =>
      obtain ⟨s, hs⟩ := exists_single? hn hsingle
      have hsame := (covers_single_iff hs).mp h
      exact (contains_single_iff hh hn hsingle).mpr (Or.inl (Or.inl hsame))
  | list items hitems ih =>
      obtain ⟨held, rfl, hpartner⟩ := covers_list_iff.mp h
      refine (contains_list_iff hh.isRegular.items fun v hv ↦ (hitems v hv).isRegular).mpr
        fun item hitem ↦ ?_
      obtain ⟨v, hv, hcovers⟩ := hpartner item hitem
      exact ⟨v, hv, ih item hitem (hh.items v hv) hcovers⟩
  | dict members hmembers _ ih =>
      obtain ⟨held, rfl, hpartner⟩ := covers_dict_iff.mp h
      obtain ⟨hnames, hheld⟩ := hh.members
      refine (contains_dict_iff hnames hmembers).mpr fun m hm ↦ ?_
      obtain ⟨v, hv, hcovers⟩ := hpartner m hm
      exact ⟨v, hv, ih m hm (hheld _ hv) hcovers⟩

theorem contains_of_includes {haystack needle : Value} (hh : haystack.IsJson)
    (hn : needle.IsJson) (h : Includes haystack needle) : contains haystack needle = .yes := by
  rcases h with hcovers | hholds
  · exact contains_of_covers hh hn hcovers
  · obtain ⟨_, -, _, -, _, -, hs⟩ := id hholds
    exact (contains_single_iff hh hn (isContainer_of_single? hs)).mpr (Or.inr (Or.inl hholds))

/-- What is found is covered, unless two parts meet that are found without being covered. -/
theorem covers_or_meet_of_contains {haystack needle : Value} (hh : haystack.IsJson)
    (hn : needle.IsJson) (h : contains haystack needle = .yes) :
    Covers haystack needle ∨ ∃ p, ReflTransGen Meet (haystack, needle) p ∧
      (Confuses p.1 p.2 ∨ Holds SameSingle p.1 p.2) := by
  induction hn using isJson_induction generalizing haystack with
  | single needle hn hsingle =>
      rcases (contains_single_iff hh hn hsingle).mp h with (hsame | hmixed) | hholds | hmixed
      · exact Or.inl (.single hsame)
      · exact Or.inr ⟨_, .refl, Or.inl (Or.inl hmixed)⟩
      · exact Or.inr ⟨_, .refl, Or.inr hholds⟩
      · exact Or.inr ⟨_, .refl, Or.inl (Or.inr hmixed)⟩
  | list items hitems ih =>
      obtain ⟨held, rfl⟩ := exists_list_of_contains hh h
      have hfound := (contains_list_iff hh.isRegular.items fun v hv ↦ (hitems v hv).isRegular).mp h
      by_cases hall : ∀ item ∈ items, ∃ v ∈ held, Covers v item
      · exact Or.inl (covers_list_iff.mpr ⟨held, rfl, hall⟩)
      · push Not at hall
        obtain ⟨item, hitem, hnone⟩ := hall
        obtain ⟨v, hv, hcontains⟩ := hfound item hitem
        obtain ⟨p, hp, hbad⟩ :=
          (ih item hitem (hh.items v hv) hcontains).resolve_left (hnone v hv)
        exact Or.inr ⟨p, hp.head (.items hv hitem), hbad⟩
  | dict members hmembers _ ih =>
      obtain ⟨held, rfl⟩ := exists_dict_of_contains hh h
      obtain ⟨hnames, hheld⟩ := hh.members
      have hfound := (contains_dict_iff hnames hmembers).mp h
      by_cases hall : ∀ m ∈ members, ∃ v, (m.1, v) ∈ held ∧ Covers v m.2
      · exact Or.inl (covers_dict_iff.mpr ⟨held, rfl, hall⟩)
      · push Not at hall
        obtain ⟨m, hm, hnone⟩ := hall
        obtain ⟨v, hv, hcontains⟩ := hfound m hm
        obtain ⟨p, hp, hbad⟩ := (ih m hm (hheld _ hv) hcontains).resolve_left (hnone v hv)
        exact Or.inr ⟨p, hp.head (.members hv hm), hbad⟩

theorem includes_or_misleads_of_contains {haystack needle : Value} (hh : haystack.IsJson)
    (hn : needle.IsJson) (h : contains haystack needle = .yes) :
    Includes haystack needle ∨ Misleads haystack needle := by
  rcases covers_or_meet_of_contains hh hn h with hcovers | ⟨p, hp, hbad⟩
  · exact Or.inl (Or.inl hcovers)
  · rcases hbad with hconfuses | hholds
    · exact Or.inr (Or.inl ⟨p, hp, hconfuses⟩)
    · -- At the top a list may hold a single value.
      rcases Relation.reflTransGen_iff_eq_or_transGen.mp hp with rfl | hbelow
      · exact Or.inl (Or.inr hholds)
      · exact Or.inr (Or.inr ⟨p, hbelow, hholds⟩)

theorem evaluate_relation {registry : Registry} {o : Operator} (ho : o ∈ registry.origins)
    (operand : Value) (template : String) (parameters : Parameters) (field : Value) :
    evaluate registry (.raw operand template parameters (some o)) field =
      evaluateRaw o operand field := by
  have hcontains : registry.origins.contains o = true := List.contains_iff_mem.mpr ho
  simp only [evaluate, hcontains, if_true]

/-- Whether one document is found in another is never left open, and the operators for either
direction evaluate to it.  All that is contained is found.  What is found is contained, unless the
documents mislead. -/
theorem document_containment {haystack needle : Value} (hh : haystack.IsJson)
    (hn : needle.IsJson) : ∃ b : Bool, contains haystack needle = .ofBool b ∧
      (∀ (registry : Registry) (field : Value) (template : String) (parameters : Parameters),
        field.isNull = false →
        (.jsonContains ∈ registry.origins → Json.decoded field = haystack →
          evaluate registry (.raw needle template parameters (some .jsonContains)) field = .ok b) ∧
        (.jsonContained ∈ registry.origins → Json.decoded field = needle →
          evaluate registry (.raw haystack template parameters (some .jsonContained)) field =
            .ok b)) ∧
      (Includes haystack needle → b = true) ∧
      (b = true → Includes haystack needle ∨ Misleads haystack needle) := by
  have hsignals := contains_ne_signals hh.isRegular hn.isRegular
  obtain ⟨b, hb⟩ : ∃ b : Bool, contains haystack needle = .ofBool b := by
    cases hverdict : contains haystack needle with
    | yes => exact ⟨true, rfl⟩
    | no => exact ⟨false, rfl⟩
    | signals => exact absurd hverdict hsignals
  have hverdict : Fault.ofVerdict (contains haystack needle) = .ok b := by
    rw [hb]
    cases b <;> rfl
  refine ⟨b, hb, fun registry field template parameters hnull ↦ ⟨?_, ?_⟩, fun h ↦ ?_, ?_⟩
  · rintro ho rfl
    rw [evaluate_relation ho, evaluateRaw, unlessNull_of_isNull_eq_false hnull]
    exact hverdict
  · rintro ho rfl
    rw [evaluate_relation ho, evaluateRaw, unlessNull_of_isNull_eq_false hnull]
    exact hverdict
  · rw [contains_of_includes hh hn h] at hb
    exact Verdict.ofBool_eq_yes_iff.mp hb.symm
  · rintro rfl
    exact includes_or_misleads_of_contains hh hn hb

/-- An object in a list that is a member of an object. -/
theorem document_containment_nested : ∃ haystack needle : Value, haystack.IsJson ∧ needle.IsJson ∧
    Includes haystack needle ∧
    evaluate .full (.raw needle "{alias} @> :p" [] (some .jsonContains)) haystack = .ok true ∧
    evaluate .full (.raw haystack "{alias} <@ :p" [] (some .jsonContained)) needle = .ok true := by
  have hobject : (Value.dict (entriesOf [("c", .bool true)])).IsJson := by
    refine .dict (by decide) fun m hm ↦ ?_
    obtain rfl := List.mem_singleton.mp hm
    exact .bool true
  have hheld : (Value.dict (entriesOf [("a", .list [.int 1, .dict (entriesOf
      [("c", .bool true)])])])).IsJson := by
    refine .dict (by decide) fun m hm ↦ ?_
    obtain rfl := List.mem_singleton.mp hm
    exact .list (List.forall_mem_cons.mpr ⟨.int 1, List.forall_mem_singleton.mpr hobject⟩)
  have hsought : (Value.dict (entriesOf [("a", .list [.dict (entriesOf
      [("c", .bool true)])])])).IsJson := by
    refine .dict (by decide) fun m hm ↦ ?_
    obtain rfl := List.mem_singleton.mp hm
    exact .list (List.forall_mem_singleton.mpr hobject)
  have hincludes : Includes (.dict (entriesOf [("a", .list [.int 1, .dict (entriesOf
      [("c", .bool true)])])])) (.dict (entriesOf [("a", .list [.dict (entriesOf
      [("c", .bool true)])])])) := by
    refine Or.inl (covers_dict_iff.mpr ⟨_, rfl, List.forall_mem_singleton.mpr
      ⟨_, List.mem_singleton_self _, covers_list_iff.mpr ⟨_, rfl, List.forall_mem_singleton.mpr
        ⟨_, List.mem_cons_of_mem _ (List.mem_singleton_self _), ?_⟩⟩⟩⟩)
    exact covers_dict_iff.mpr ⟨_, rfl, List.forall_mem_singleton.mpr
      ⟨_, List.mem_singleton_self _, .single ⟨_, rfl, rfl⟩⟩⟩
  obtain ⟨b, -, hevaluate, hfound, -⟩ := document_containment hheld hsought
  obtain rfl := hfound hincludes
  exact ⟨_, _, hheld, hsought, hincludes,
    (hevaluate .full _ _ _ rfl).1 (by decide) rfl, (hevaluate .full _ _ _ rfl).2 (by decide) rfl⟩

/-- A number is found in a list that is an item of a list, and in a list with a truth value. -/
theorem contains_without_includes :
    (contains (.list [.list [.int 1]]) (.list [.int 1]) = .yes ∧
      ¬Includes (.list [.list [.int 1]]) (.list [.int 1])) ∧
    contains (.list [.bool true]) (.list [.int 1]) = .yes ∧
      ¬Includes (.list [.bool true]) (.list [.int 1]) := by
  have hitem : ∀ v : Value, Includes (.list [v]) (.list [.int 1]) → SameSingle v (.int 1) := by
    rintro v (hcovers | ⟨_, -, _, -, _, -, hs⟩)
    · obtain ⟨held, hheld, hpartner⟩ := covers_list_iff.mp hcovers
      obtain ⟨w, hw, hcovered⟩ := hpartner (.int 1) List.mem_cons_self
      obtain rfl := Value.list.inj hheld
      obtain rfl := List.mem_singleton.mp hw
      exact (covers_single_iff rfl).mp hcovered
    · cases hs
  refine ⟨⟨by decide, fun h ↦ ?_⟩, by decide, fun h ↦ ?_⟩
  · obtain ⟨s, hs, -⟩ := hitem _ h
    cases hs
  · obtain ⟨s, htruth, hnumber⟩ := hitem _ h
    cases htruth
    cases hnumber

end Criteria.Memory
