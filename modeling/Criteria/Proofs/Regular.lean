import Criteria.Memory.Containment
import Criteria.Proofs.Identities

/-!
# Regular values

A regular value is made of values without parts, lists, tuples and dictionaries, and equals itself:
there is nothing in it that is not a number.  Comparing regular values never signals, equality of
them is symmetric, and what is equal contains each other.
-/

namespace Criteria

/-! ## Verdicts -/

namespace Verdict

theorem all_ne_signals {vs : List Verdict} (h : ∀ v ∈ vs, v ≠ signals) : all vs ≠ signals := by
  induction vs with
  | nil => exact nofun
  | cons v rest ih =>
      rw [List.forall_mem_cons] at h
      cases v with
      | yes => exact ih h.2
      | no => exact nofun
      | signals => exact absurd rfl h.1

theorem any_ne_signals {vs : List Verdict} (h : ∀ v ∈ vs, v ≠ signals) : any vs ≠ signals := by
  induction vs with
  | nil => exact nofun
  | cons v rest ih =>
      rw [List.forall_mem_cons] at h
      cases v with
      | yes => exact nofun
      | no => exact ih h.2
      | signals => exact absurd rfl h.1

theorem mem_of_any_eq_yes {vs : List Verdict} (h : any vs = yes) : yes ∈ vs := by
  induction vs with
  | nil => cases h
  | cons v rest ih =>
      cases v with
      | yes => exact List.mem_cons_self
      | no => exact List.mem_cons_of_mem no (ih h)
      | signals => cases h

theorem any_eq_yes_iff {vs : List Verdict} (h : ∀ v ∈ vs, v ≠ signals) :
    any vs = yes ↔ yes ∈ vs := by
  refine ⟨mem_of_any_eq_yes, fun hyes ↦ ?_⟩
  induction vs with
  | nil => cases hyes
  | cons v rest ih =>
      rw [List.forall_mem_cons] at h
      cases v with
      | yes => rfl
      | no => exact ih h.2 ((List.mem_cons.mp hyes).resolve_left nofun)
      | signals => exact absurd rfl h.1

end Verdict

namespace Value

theorem forall₂_flip {α β : Type*} {R : α → β → Prop} {S : β → α → Prop} {xs : List α}
    {ys : List β} (h : List.Forall₂ R xs ys) (himp : ∀ x ∈ xs, ∀ y ∈ ys, R x y → S y x) :
    List.Forall₂ S ys xs := by
  induction h with
  | nil => exact .nil
  | cons hxy _ ih =>
      refine .cons (himp _ List.mem_cons_self _ List.mem_cons_self hxy) (ih fun x hx y hy ↦ ?_)
      exact himp x (List.mem_cons_of_mem _ hx) y (List.mem_cons_of_mem _ hy)

theorem exists_mem_of_forall₂ {α β : Type*} {R : α → β → Prop} {xs : List α} {ys : List β}
    (h : List.Forall₂ R xs ys) : ∀ y ∈ ys, ∃ x ∈ xs, R x y := by
  induction h with
  | nil => exact List.forall_mem_nil _
  | @cons x y xs ys hxy _ ih =>
      refine List.forall_mem_cons.mpr ⟨⟨x, List.mem_cons_self, hxy⟩, fun z hz ↦ ?_⟩
      exact (ih z hz).imp fun x hx ↦ ⟨List.mem_cons_of_mem _ hx.1, hx.2⟩

/-! ## What is found under a key -/

/-- The verdict on two values of which the second may be missing. -/
def foundVerdict (compare : Value → Verdict) (found : Option (Value × Value)) : Verdict :=
  match found with
  | some e => compare e.2
  | none => .no

theorem entryVerdicts_eq_map (entries held : List (Value × Value)) :
    entryVerdicts entries held = entries.map fun e ↦
      foundVerdict e.2.matching (held.find? fun f ↦ e.1.equal f.1) := by
  induction entries with
  | nil => rfl
  | cons e rest ih =>
      rw [entryVerdicts, ih, List.map_cons]
      rfl

theorem foundVerdict_eq_yes_iff {compare : Value → Verdict} {found : Option (Value × Value)} :
    foundVerdict compare found = .yes ↔ ∃ e, found = some e ∧ compare e.2 = .yes := by
  cases found <;> simp [foundVerdict]

theorem foundVerdict_ne_signals {compare : Value → Verdict} {held : List (Value × Value)}
    (h : ∀ e ∈ held, compare e.2 ≠ .signals) (test : Value × Value → Bool) :
    foundVerdict compare (held.find? test) ≠ .signals := by
  cases hfound : held.find? test with
  | none => exact nofun
  | some e => exact h e (List.mem_of_find?_eq_some hfound)

namespace HasDistinctKeys

variable {entries others : List (Value × Value)}

theorem foundVerdict_eq_yes_iff (h : HasDistinctKeys others) {key : Value} (hkey : key.HasIdentity)
    (compare : Value → Verdict) :
    foundVerdict compare (others.find? fun f ↦ key.equal f.1) = .yes ↔
      ∃ f ∈ others, f.1.identity? = key.identity? ∧ compare f.2 = .yes := by
  obtain ⟨i, hi⟩ := hkey
  simp only [Value.foundVerdict_eq_yes_iff, h.find?_eq_some_iff hi, hi, and_assoc]

/-- When every entry has a partner in a dictionary of the same size, the partners are all of its
entries. -/
theorem exists_partner (h : HasDistinctKeys entries) (hothers : HasDistinctKeys others)
    (hlength : entries.length = others.length) {related : Value × Value → Value × Value → Prop}
    (hpartner : ∀ e ∈ entries, ∃ f ∈ others, f.1.identity? = e.1.identity? ∧ related e f) :
    ∀ f ∈ others, ∃ e ∈ entries, e.1.identity? = f.1.identity? ∧ related e f := by
  intro f hf
  obtain ⟨e, he, hsame⟩ := exists_name_of_length_le h.nodup_identities hlength.ge
    (fun e he ↦ (hpartner e he).imp fun f hf ↦ ⟨hf.1, hf.2.1⟩) f hf
  obtain ⟨g, hg, hsame', hrelated⟩ := hpartner e he
  obtain rfl := List.inj_on_of_nodup_map hothers.nodup_identities hg hf (hsame'.trans hsame)
  exact ⟨e, he, hsame, hrelated⟩

/-- Dictionaries of one size are equal when every entry of the first has a matching partner. -/
theorem equality_dict_iff (h : HasDistinctKeys entries) (hothers : HasDistinctKeys others) :
    (Value.dict entries).equality (.dict others) = .yes ↔ entries.length = others.length ∧
      ∀ e ∈ entries, ∃ f ∈ others, f.1.identity? = e.1.identity? ∧ e.2.matching f.2 = .yes := by
  rw [equality, entriesVerdict, Verdict.all_eq_yes_iff, List.forall_mem_cons,
    Verdict.ofBool_eq_yes_iff, beq_iff_eq, entryVerdicts_eq_map, List.length_map,
    List.forall_mem_map]
  exact and_congr_right fun _ ↦ forall₂_congr fun e he ↦
    hothers.foundVerdict_eq_yes_iff (h.keys e he) e.2.matching

end HasDistinctKeys

/-! ## Regular values -/

/-- A value that is made of values without parts, lists, tuples and dictionaries, and in which
nothing is not a number. -/
inductive IsRegular : Value → Prop where
  | plain {v : Value} {i : Identity} (h : v.plainIdentity? = some i) : IsRegular v
  | list {items : List Value} (h : ∀ v ∈ items, IsRegular v) : IsRegular (.list items)
  | tuple {items : List Value} (h : ∀ v ∈ items, IsRegular v) : IsRegular (.tuple items)
  | dict {entries : List (Value × Value)} (hentries : HasDistinctKeys entries)
      (h : ∀ e ∈ entries, IsRegular e.2) : IsRegular (.dict entries)

namespace IsRegular

variable {v w : Value}

theorem items {items : List Value} (h : (Value.list items).IsRegular) :
    ∀ v ∈ items, v.IsRegular := by
  cases h with
  | plain h => cases h
  | list hitems => exact hitems

theorem tupleItems {items : List Value} (h : (Value.tuple items).IsRegular) :
    ∀ v ∈ items, v.IsRegular := by
  cases h with
  | plain h => cases h
  | tuple hitems => exact hitems

theorem entries {entries : List (Value × Value)} (h : (Value.dict entries).IsRegular) :
    HasDistinctKeys entries ∧ ∀ e ∈ entries, e.2.IsRegular := by
  cases h with
  | plain h => cases h
  | dict hentries hvalues => exact ⟨hentries, hvalues⟩

theorem isSignalling_eq_false (h : v.IsRegular) : v.isSignalling = false := by
  cases h with
  | plain h =>
      by_contra hsignals
      have hamount := amount?_of_isSignalling (v := v) (by simpa using hsignals)
      cases v with
      | decimal d => simp [plainIdentity?, hamount] at h
      | _ => exact hsignals rfl
  | _ => rfl

theorem matching_eq (h : v.IsRegular) (w : Value) : v.matching w = v.equality w := by
  refine matching_eq_equality ?_ w
  cases h with
  | plain h => exact quantity?_ne_nan_of_plainIdentity? h
  | _ => simp [quantity?]

theorem forall₂_matching_iff {items others : List Value} (h : ∀ v ∈ items, v.IsRegular) :
    List.Forall₂ (fun v w ↦ v.matching w = .yes) items others ↔
      List.Forall₂ (fun v w ↦ v.equality w = .yes) items others := by
  induction items generalizing others with
  | nil => cases others <;> simp
  | cons v rest ih =>
      rw [List.forall_mem_cons] at h
      cases others with
      | nil => simp
      | cons w others => rw [List.forall₂_cons, List.forall₂_cons, h.1.matching_eq, ih h.2]

theorem equality_list_iff {items others : List Value} (h : ∀ v ∈ items, v.IsRegular) :
    (Value.list items).equality (.list others) = .yes ↔
      List.Forall₂ (fun v w ↦ v.equality w = .yes) items others := by
  rw [Value.equality_list_iff, forall₂_matching_iff h]

theorem equality_tuple_iff {items others : List Value} (h : ∀ v ∈ items, v.IsRegular) :
    (Value.tuple items).equality (.tuple others) = .yes ↔
      List.Forall₂ (fun v w ↦ v.equality w = .yes) items others := by
  rw [Value.equality_tuple_iff, forall₂_matching_iff h]

/-- Dictionaries of one size are equal when every entry of the first has an equal partner. -/
theorem equality_dict_iff {entries others : List (Value × Value)}
    (hentries : HasDistinctKeys entries) (hothers : HasDistinctKeys others)
    (h : ∀ e ∈ entries, e.2.IsRegular) :
    (Value.dict entries).equality (.dict others) = .yes ↔ entries.length = others.length ∧
      ∀ e ∈ entries, ∃ f ∈ others, f.1.identity? = e.1.identity? ∧ e.2.equality f.2 = .yes := by
  rw [hentries.equality_dict_iff hothers]
  refine and_congr_right fun _ ↦ forall₂_congr fun e he ↦ ?_
  simp only [(h e he).matching_eq]

end IsRegular

theorem matching_ne_signals {v w : Value} (h : v.equality w ≠ .signals) :
    v.matching w ≠ .signals := by
  rw [matching, unlessSame]
  split
  · exact nofun
  · exact h

theorem sameQuantity_ne_signals {a b : Value} (ha : a.isSignalling = false)
    (hb : b.isSignalling = false) : sameQuantity a b ≠ .signals := by
  rw [sameQuantity]
  split
  · rw [ha, hb]
    exact Verdict.ofBool_ne_signals _
  · exact Verdict.ofBool_ne_signals false

theorem itemVerdicts_ne_signals {items others : List Value}
    (h : ∀ v ∈ items, ∀ w ∈ others, v.equality w ≠ .signals) :
    ∀ verdict ∈ itemVerdicts items others, verdict ≠ .signals := by
  induction items generalizing others with
  | nil => simp [itemVerdicts]
  | cons v rest ih =>
      cases others with
      | nil => simp [itemVerdicts]
      | cons w others =>
          rw [itemVerdicts, List.forall_mem_cons]
          exact ⟨matching_ne_signals (h v List.mem_cons_self w List.mem_cons_self),
            ih fun a ha b hb ↦ h a (List.mem_cons_of_mem v ha) b (List.mem_cons_of_mem w hb)⟩

namespace IsRegular

variable {v w : Value}

theorem equality_ne_signals (h : v.IsRegular) (hw : w.IsRegular) : v.equality w ≠ .signals := by
  induction h generalizing w with
  | @plain v i h =>
      have hnone := (IsRegular.plain h).isSignalling_eq_false
      have hnone' := hw.isSignalling_eq_false
      cases v with
      | null => exact Verdict.ofBool_ne_signals _
      | bool b => exact sameQuantity_ne_signals hnone hnone'
      | int n => exact sameQuantity_ne_signals hnone hnone'
      | float x => exact sameQuantity_ne_signals hnone hnone'
      | decimal d => exact sameQuantity_ne_signals hnone hnone'
      | text _ | bytes _ | date _ | datetime _ =>
          cases w <;> simp [equality, Verdict.ofBool_ne_signals]
      | _ => cases h
  | list _ ih =>
      cases w with
      | list others =>
          rw [equality]
          refine Verdict.all_ne_signals (List.forall_mem_cons.mpr
            ⟨Verdict.ofBool_ne_signals _, itemVerdicts_ne_signals fun v hv w hother ↦ ?_⟩)
          exact ih v hv (hw.items w hother)
      | _ => exact Verdict.ofBool_ne_signals false
  | tuple _ ih =>
      cases w with
      | tuple others =>
          rw [equality]
          refine Verdict.all_ne_signals (List.forall_mem_append.mpr
            ⟨itemVerdicts_ne_signals fun v hv w hother ↦ ?_,
              List.forall_mem_singleton.mpr (Verdict.ofBool_ne_signals _)⟩)
          exact ih v hv (hw.tupleItems w hother)
      | _ => exact Verdict.ofBool_ne_signals false
  | dict _ _ ih =>
      cases w with
      | dict others =>
          rw [equality, entriesVerdict, entryVerdicts_eq_map]
          refine Verdict.all_ne_signals (List.forall_mem_cons.mpr
            ⟨Verdict.ofBool_ne_signals _, List.forall_mem_map.mpr fun e he ↦ ?_⟩)
          exact foundVerdict_ne_signals
            (fun f hf ↦ matching_ne_signals (ih e he (hw.entries.2 f hf))) _
      | _ => exact Verdict.ofBool_ne_signals false

theorem equality_self (h : v.IsRegular) : v.equality v = .yes := by
  induction h with
  | @plain v i h => exact (equality_eq_yes_iff_plainIdentity? h v).mpr h
  | list hitems ih => exact (equality_list_iff hitems).mpr (List.forall₂_same.mpr ih)
  | tuple hitems ih => exact (equality_tuple_iff hitems).mpr (List.forall₂_same.mpr ih)
  | dict hentries hvalues ih =>
      exact (equality_dict_iff hentries hentries hvalues).mpr
        ⟨rfl, fun e he ↦ ⟨e, he, rfl, ih e he⟩⟩

theorem equality_symm (h : v.IsRegular) (hw : w.IsRegular) (hequal : v.equality w = .yes) :
    w.equality v = .yes := by
  induction h generalizing w with
  | @plain v i h =>
      have hother := (equality_eq_yes_iff_plainIdentity? h w).mp hequal
      exact (equality_eq_yes_iff_plainIdentity? hother v).mpr h
  | list hitems ih =>
      cases w with
      | list others =>
          refine (equality_list_iff hw.items).mpr
            (forall₂_flip ((equality_list_iff hitems).mp hequal) ?_)
          exact fun v hv w hother hsame ↦ ih v hv (hw.items w hother) hsame
      | _ => cases hequal
  | tuple hitems ih =>
      cases w with
      | tuple others =>
          refine (equality_tuple_iff hw.tupleItems).mpr
            (forall₂_flip ((equality_tuple_iff hitems).mp hequal) ?_)
          exact fun v hv w hother hsame ↦ ih v hv (hw.tupleItems w hother) hsame
      | _ => cases hequal
  | dict hentries hvalues ih =>
      cases w with
      | dict others =>
          obtain ⟨hothers, hvalues'⟩ := hw.entries
          obtain ⟨hlength, hpartner⟩ := (equality_dict_iff hentries hothers hvalues).mp hequal
          refine (equality_dict_iff hothers hentries hvalues').mpr ⟨hlength.symm, fun f hf ↦ ?_⟩
          obtain ⟨e, he, hsame, hvalue⟩ :=
            hentries.exists_partner hothers hlength hpartner f hf
          exact ⟨e, he, hsame, ih e he (hvalues' f hf) hvalue⟩
      | _ => cases hequal

end IsRegular

end Value

/-! ## Containment of regular values -/

namespace Memory

open Value (HasDistinctKeys IsRegular foundVerdict foundVerdict_ne_signals)

theorem membership_eq_any {items : List Value} (hitems : ∀ v ∈ items, v.IsRegular)
    (needle : Value) : needle.membership items = .any (items.map fun v ↦ v.equality needle) :=
  congrArg Verdict.any (List.map_congr_left fun v hv ↦ (hitems v hv).matching_eq needle)

theorem membership_ne_signals {items : List Value} {needle : Value}
    (hitems : ∀ v ∈ items, v.IsRegular) (hneedle : needle.IsRegular) :
    needle.membership items ≠ .signals := by
  rw [membership_eq_any hitems]
  exact Verdict.any_ne_signals (List.forall_mem_map.mpr fun item hitem ↦
    (hitems item hitem).equality_ne_signals hneedle)

theorem containsPlain_ne_signals {haystack needle : Value} (h : haystack.IsRegular)
    (hneedle : needle.IsRegular) : containsPlain haystack needle ≠ .signals := by
  have hequality := h.equality_ne_signals hneedle
  cases haystack with
  | list held =>
      rw [containsPlain]
      split
      · exact hequality
      · exact membership_ne_signals h.items hneedle
  | _ => exact hequality

theorem itemVerdicts_eq_map (held items : List Value) :
    itemVerdicts held items = items.map fun item ↦
      .any (held.map fun other ↦ contains other item) := by
  induction items with
  | nil => rfl
  | cons item rest ih => rw [itemVerdicts, ih, List.map_cons]

theorem entryVerdicts_eq_map (held entries : List (Value × Value)) :
    entryVerdicts held entries = entries.map fun e ↦
      foundVerdict (contains · e.2) (held.find? fun f ↦ e.1.equal f.1) := by
  induction entries with
  | nil => rfl
  | cons e rest ih =>
      rw [entryVerdicts, ih, List.map_cons, Value.lookup?]
      cases held.find? fun f ↦ e.1.equal f.1 <;> rfl

theorem contains_eq_equality {haystack : Value} (h : isContainer haystack = false)
    (needle : Value) : contains haystack needle = haystack.equality needle := by
  cases haystack with
  | list _ | dict _ => cases h
  | _ => cases needle <;> rfl

theorem contains_ne_signals {haystack needle : Value} (h : haystack.IsRegular)
    (hneedle : needle.IsRegular) : contains haystack needle ≠ .signals := by
  induction hneedle generalizing haystack with
  | @plain needle i hi =>
      have hneedle := containsPlain_ne_signals h (.plain hi)
      cases needle with
      | list _ | dict _ => cases hi
      | _ => exact hneedle
  | @list items hitems ih =>
      have hplain := containsPlain_ne_signals h (.list hitems)
      cases haystack with
      | list held =>
          rw [contains, itemVerdicts_eq_map]
          refine Verdict.all_ne_signals (List.forall_mem_map.mpr fun item hitem ↦
            Verdict.any_ne_signals (List.forall_mem_map.mpr fun other hother ↦ ?_))
          exact ih item hitem (h.items other hother)
      | _ => exact hplain
  | @tuple items hitems _ => exact containsPlain_ne_signals h (.tuple hitems)
  | @dict entries hentries hvalues ih =>
      have hplain := containsPlain_ne_signals h (.dict hentries hvalues)
      cases haystack with
      | dict held =>
          rw [contains, entryVerdicts_eq_map]
          refine Verdict.all_ne_signals (List.forall_mem_map.mpr fun e he ↦
            foundVerdict_ne_signals (fun f hf ↦ ?_) _)
          exact ih e he (h.entries.2 f hf)
      | _ => exact hplain

theorem contains_list_iff {held items : List Value} (hheld : ∀ v ∈ held, v.IsRegular)
    (hitems : ∀ v ∈ items, v.IsRegular) : contains (.list held) (.list items) = .yes ↔
      ∀ item ∈ items, ∃ v ∈ held, contains v item = .yes := by
  rw [contains, itemVerdicts_eq_map, Verdict.all_eq_yes_iff, List.forall_mem_map]
  refine forall₂_congr fun item hitem ↦ ?_
  rw [Verdict.any_eq_yes_iff (List.forall_mem_map.mpr fun v hv ↦
    contains_ne_signals (hheld v hv) (hitems item hitem))]
  exact List.mem_map

theorem contains_entries_iff {held entries : List (Value × Value)} (hheld : HasDistinctKeys held)
    (hkeys : ∀ e ∈ entries, e.1.HasIdentity) : contains (.dict held) (.dict entries) = .yes ↔
      ∀ e ∈ entries, ∃ f ∈ held, f.1.identity? = e.1.identity? ∧ contains f.2 e.2 = .yes := by
  rw [contains, entryVerdicts_eq_map, Verdict.all_eq_yes_iff, List.forall_mem_map]
  exact forall₂_congr fun e he ↦ hheld.foundVerdict_eq_yes_iff (hkeys e he) (contains · e.2)

/-- A regular value contains what it equals. -/
theorem contains_of_equality {v w : Value} (h : v.IsRegular) (hw : w.IsRegular)
    (hequal : v.equality w = .yes) : contains v w = .yes := by
  induction h generalizing w with
  | @plain v i hi =>
      have hsingle : isContainer v = false := by
        cases v with
        | list _ | dict _ => cases hi
        | _ => rfl
      rwa [contains_eq_equality hsingle]
  | list hitems ih =>
      cases w with
      | list others =>
          -- Each item is contained in the one at its place.
          refine (contains_list_iff hitems hw.items).mpr fun w hother ↦ ?_
          obtain ⟨v, hv, hsame⟩ :=
            Value.exists_mem_of_forall₂ ((IsRegular.equality_list_iff hitems).mp hequal) w hother
          exact ⟨v, hv, ih v hv (hw.items w hother) hsame⟩
      | _ => cases hequal
  | tuple _ _ => rwa [contains_eq_equality rfl]
  | dict hentries hvalues ih =>
      cases w with
      | dict others =>
          obtain ⟨hothers, hvalues'⟩ := hw.entries
          obtain ⟨hlength, hpartner⟩ :=
            (IsRegular.equality_dict_iff hentries hothers hvalues).mp hequal
          refine (contains_entries_iff hentries hothers.keys).mpr fun f hf ↦ ?_
          obtain ⟨e, he, hsame, hvalue⟩ :=
            hentries.exists_partner hothers hlength hpartner f hf
          exact ⟨e, he, hsame, ih e he (hvalues' f hf) hvalue⟩
      | _ => cases hequal

end Memory

end Criteria
