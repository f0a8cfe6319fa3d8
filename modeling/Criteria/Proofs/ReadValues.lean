import Criteria.Json.Reader
import Criteria.Proofs.Regular

/-!
# Values that are read

A document is read as a regular value unless something in it is not a number.  In particular each
object keeps one value for each of its names.
-/

namespace Criteria

namespace Value

/-- Something in the value is not a number. -/
inductive HasNan : Value → Prop where
  | number {v : Value} (h : v.quantity? = some .nan) : HasNan v
  | list {items : List Value} {v : Value} (hv : v ∈ items) (h : HasNan v) : HasNan (.list items)
  | tuple {items : List Value} {v : Value} (hv : v ∈ items) (h : HasNan v) : HasNan (.tuple items)
  | dict {entries : List (Value × Value)} {e : Value × Value} (he : e ∈ entries)
      (h : HasNan e.2) : HasNan (.dict entries)

theorem IsRegular.not_hasNan {v : Value} (h : v.IsRegular) : ¬v.HasNan := by
  induction h with
  | @plain v i h =>
      intro hnan
      cases hnan with
      | number hquantity =>
          have hamount : v.amount? = none := by rw [amount?, hquantity]; rfl
          cases v <;> simp_all [plainIdentity?, quantity?]
      | _ => cases h
  | list _ ih =>
      intro hnan
      cases hnan with
      | number h => cases h
      | list hv h => exact ih _ hv h
  | tuple _ ih =>
      intro hnan
      cases hnan with
      | number h => cases h
      | tuple hv h => exact ih _ hv h
  | dict _ _ ih =>
      intro hnan
      cases hnan with
      | number h => cases h
      | dict he h => exact ih _ he h

/-- The value is regular unless something in it is not a number. -/
def RegularUnlessNan (v : Value) : Prop := ¬v.HasNan → v.IsRegular

theorem regularUnlessNan_plain {v : Value} {i : Identity} (h : v.plainIdentity? = some i) :
    v.RegularUnlessNan := fun _ ↦ .plain h

theorem regularUnlessNan_float (x : Number.Double) : (Value.float x).RegularUnlessNan := by
  cases x with
  | nan => exact fun hnan ↦ absurd (.number rfl) hnan
  | _ => exact regularUnlessNan_plain rfl

theorem regularUnlessNan_list {items : List Value} (h : ∀ v ∈ items, v.RegularUnlessNan) :
    (Value.list items).RegularUnlessNan :=
  fun hnan ↦ .list fun v hv ↦ h v hv fun hv' ↦ hnan (.list hv hv')

theorem regularUnlessNan_dict {entries : List (Value × Value)} (hentries : HasDistinctKeys entries)
    (h : ∀ e ∈ entries, e.2.RegularUnlessNan) : (Value.dict entries).RegularUnlessNan :=
  fun hnan ↦ .dict hentries fun e he ↦ h e he fun he' ↦ hnan (.dict he he')

/-! ## Adding entries -/

theorem hasDistinctKeys_cons_iff {e : Value × Value} {entries : List (Value × Value)} :
    HasDistinctKeys (e :: entries) ↔
      (e.1.HasIdentity ∧ ∀ f ∈ entries, f.1.equal e.1 = false) ∧ HasDistinctKeys entries := by
  constructor
  · rintro ⟨hkeys, hdistinct⟩
    rw [List.forall_mem_cons] at hkeys
    rw [List.pairwise_cons] at hdistinct
    exact ⟨⟨hkeys.1, hdistinct.1⟩, hkeys.2, hdistinct.2⟩
  · rintro ⟨⟨hkey, hother⟩, hkeys, hdistinct⟩
    exact ⟨List.forall_mem_cons.mpr ⟨hkey, hkeys⟩, List.pairwise_cons.mpr ⟨hother, hdistinct⟩⟩

theorem hasDistinctKeys_nil : HasDistinctKeys [] := ⟨List.forall_mem_nil _, .nil⟩

theorem mem_insertEntry {key value : Value} {entries : List (Value × Value)} {e : Value × Value}
    (h : e ∈ insertEntry key value entries) :
    (e.1 = key ∨ ∃ f ∈ entries, f.1 = e.1) ∧ (e.2 = value ∨ ∃ f ∈ entries, f.2 = e.2) := by
  induction entries with
  | nil =>
      obtain rfl := List.mem_singleton.mp h
      exact ⟨Or.inl rfl, Or.inl rfl⟩
  | cons first rest ih =>
      obtain ⟨k, v⟩ := first
      rw [insertEntry] at h
      split at h <;> rcases List.mem_cons.mp h with rfl | h
      · exact ⟨Or.inr ⟨_, List.mem_cons_self, rfl⟩, Or.inl rfl⟩
      · exact ⟨Or.inr ⟨e, List.mem_cons_of_mem _ h, rfl⟩, Or.inr ⟨e, List.mem_cons_of_mem _ h, rfl⟩⟩
      · exact ⟨Or.inr ⟨_, List.mem_cons_self, rfl⟩, Or.inr ⟨_, List.mem_cons_self, rfl⟩⟩
      · exact (ih h).imp (Or.imp_right fun ⟨f, hf, hsame⟩ ↦ ⟨f, List.mem_cons_of_mem _ hf, hsame⟩)
          (Or.imp_right fun ⟨f, hf, hsame⟩ ↦ ⟨f, List.mem_cons_of_mem _ hf, hsame⟩)

theorem hasDistinctKeys_insertEntry {entries : List (Value × Value)} (h : HasDistinctKeys entries)
    {key : Value} (hkey : key.HasIdentity) (value : Value) :
    HasDistinctKeys (insertEntry key value entries) := by
  induction entries with
  | nil =>
      exact hasDistinctKeys_cons_iff.mpr ⟨⟨hkey, List.forall_mem_nil _⟩, h⟩
  | cons first rest ih =>
      obtain ⟨k, v⟩ := first
      obtain ⟨⟨hk, hother⟩, hrest⟩ := hasDistinctKeys_cons_iff.mp h
      rw [insertEntry]
      split
      · exact hasDistinctKeys_cons_iff.mpr ⟨⟨hk, hother⟩, hrest⟩
      · next hnew =>
          refine hasDistinctKeys_cons_iff.mpr ⟨⟨hk, fun f hf ↦ ?_⟩, ih hrest⟩
          rcases (mem_insertEntry hf).1 with hsame | ⟨g, hg, hsame⟩
          · rw [hsame]
            simpa using hnew
          · rw [← hsame]
            exact hother g hg

/-- The dictionary of some entries has different keys, and values that are among theirs. -/
theorem exists_ofEntries {entries : List (Value × Value)} {allowed : Value → Prop}
    (h : ∀ e ∈ entries, e.1.HasIdentity ∧ allowed e.2) :
    ∃ held, ofEntries entries = .dict held ∧ HasDistinctKeys held ∧ ∀ e ∈ held, allowed e.2 := by
  have hfold : ∀ done, HasDistinctKeys done → (∀ e ∈ done, allowed e.2) →
      HasDistinctKeys (entries.foldl (fun done e ↦ insertEntry e.1 e.2 done) done) ∧
      ∀ e ∈ entries.foldl (fun done e ↦ insertEntry e.1 e.2 done) done, allowed e.2 := by
    induction entries with
    | nil => exact fun done hdone hallowed ↦ ⟨hdone, hallowed⟩
    | cons first rest ih =>
        rw [List.forall_mem_cons] at h
        intro done hdone hallowed
        refine ih h.2 _ (hasDistinctKeys_insertEntry hdone h.1.1 first.2) fun e he ↦ ?_
        rcases (mem_insertEntry he).2 with hsame | ⟨f, hf, hsame⟩
        · exact hsame ▸ h.1.2
        · exact hsame ▸ hallowed f hf
  exact ⟨_, rfl, hfold [] hasDistinctKeys_nil (List.forall_mem_nil _)⟩

end Value

namespace Json

open Value (RegularUnlessNan)

theorem regularUnlessNan_of_readNumber? {negative : Bool} {cs rest : List Char} {v : Value}
    (h : readNumber? negative cs = some (v, rest)) : v.RegularUnlessNan := by
  rw [readNumber?] at h
  split at h
  · cases h
  · dsimp only at h
    split at h
    · split at h
      · cases h
      · cases h
        exact Value.regularUnlessNan_plain rfl
    · cases h
      exact Value.regularUnlessNan_float _

theorem regularUnlessNan_of_readScalar? {cs rest : List Char} {v : Value}
    (h : readScalar? cs = some (v, rest)) : v.RegularUnlessNan := by
  have hword : ∀ (w : String) (u : Value), u.RegularUnlessNan →
      (skipWord? w.toList cs).map (u, ·) = some (v, rest) → v.RegularUnlessNan := by
    intro w u hu hmap
    obtain ⟨_, -, hsame⟩ := Option.map_eq_some_iff.mp hmap
    exact (Prod.mk.inj hsame).1 ▸ hu
  rw [readScalar?.eq_def] at h
  dsimp only at h
  split at h
  case h_1 | h_2 | h_3 => exact hword _ _ (Value.regularUnlessNan_plain rfl) h
  case h_4 | h_5 | h_6 => exact hword _ _ (Value.regularUnlessNan_float _) h
  all_goals exact regularUnlessNan_of_readNumber? h

/-- Every value that is read with some size is regular unless something in it is not a number. -/
structure ReadsRegular (size : Nat) : Prop where
  value {cs rest : List Char} {v : Value} (h : readValue? size cs = some (v, rest)) :
    v.RegularUnlessNan
  items {cs rest : List Char} {items : List Value} (h : readItems? size cs = some (items, rest)) :
    ∀ v ∈ items, v.RegularUnlessNan
  members {cs rest : List Char} {entries : List (Value × Value)}
    (h : readMembers? size cs = some (entries, rest)) :
    ∀ e ∈ entries, e.1.HasIdentity ∧ e.2.RegularUnlessNan

theorem ReadsRegular.value_succ {size : Nat} (ih : ReadsRegular size) {cs rest : List Char}
    {v : Value} (h : readValue? (size + 1) cs = some (v, rest)) : v.RegularUnlessNan := by
  rw [readValue?.eq_def] at h
  dsimp only at h
  split at h
  · cases h
  · obtain ⟨_, -, hsame⟩ := Option.map_eq_some_iff.mp h
    cases hsame
    exact Value.regularUnlessNan_plain rfl
  · next hsize =>
      obtain rfl := Nat.succ.inj hsize
      split at h
      · cases h
        exact Value.regularUnlessNan_list (List.forall_mem_nil _)
      · obtain ⟨⟨items, rest⟩, hread, hsame⟩ := Option.map_eq_some_iff.mp h
        cases hsame
        exact Value.regularUnlessNan_list (ih.items hread)
  · next hsize =>
      obtain rfl := Nat.succ.inj hsize
      split at h
      · cases h
        exact Value.regularUnlessNan_dict Value.hasDistinctKeys_nil (List.forall_mem_nil _)
      · obtain ⟨⟨entries, rest⟩, hread, hsame⟩ := Option.map_eq_some_iff.mp h
        cases hsame
        obtain ⟨held, hheld, hkeys, hvalues⟩ := Value.exists_ofEntries (ih.members hread)
        exact hheld ▸ Value.regularUnlessNan_dict hkeys hvalues
  · exact regularUnlessNan_of_readScalar? h

theorem ReadsRegular.items_succ {size : Nat} (ih : ReadsRegular size) {cs rest : List Char}
    {items : List Value} (h : readItems? (size + 1) cs = some (items, rest)) :
    ∀ v ∈ items, v.RegularUnlessNan := by
  rw [readItems?] at h
  split at h
  · cases h
  · next item _ hitem =>
      split at h
      · cases h
        exact List.forall_mem_singleton.mpr (ih.value hitem)
      · obtain ⟨⟨others, rest⟩, hread, hsame⟩ := Option.map_eq_some_iff.mp h
        cases hsame
        exact List.forall_mem_cons.mpr ⟨ih.value hitem, ih.items hread⟩
      · cases h

theorem ReadsRegular.members_succ {size : Nat} (ih : ReadsRegular size) {cs rest : List Char}
    {entries : List (Value × Value)} (h : readMembers? (size + 1) cs = some (entries, rest)) :
    ∀ e ∈ entries, e.1.HasIdentity ∧ e.2.RegularUnlessNan := by
  rw [readMembers?.eq_def] at h
  dsimp only at h
  split at h
  · next hsize =>
      obtain rfl := Nat.succ.inj hsize
      split at h
      · cases h
      · split at h
        · split at h
          · cases h
          · next value _ hvalue =>
              have hfirst : ∀ name, (Value.text name).HasIdentity ∧ value.RegularUnlessNan :=
                fun name ↦ ⟨⟨_, rfl⟩, ih.value hvalue⟩
              split at h
              · cases h
                exact List.forall_mem_singleton.mpr (hfirst _)
              · obtain ⟨⟨others, rest⟩, hread, hsame⟩ := Option.map_eq_some_iff.mp h
                cases hsame
                exact List.forall_mem_cons.mpr ⟨hfirst _, ih.members hread⟩
              · cases h
        · cases h
  · cases h

theorem readsRegular (size : Nat) : ReadsRegular size := by
  induction size with
  | zero =>
      refine ⟨fun h ↦ ?_, fun h ↦ ?_, fun h ↦ ?_⟩
      · cases h
      · cases h
      · cases h
  | succ size ih => exact ⟨ih.value_succ, ih.items_succ, ih.members_succ⟩

/-- A document is read as a regular value unless something in it is not a number. -/
theorem regularUnlessNan_of_read? {cs : List Char} {v : Value} (h : read? cs = some v) :
    v.RegularUnlessNan := by
  rw [read?] at h
  split at h
  · next hread =>
      split at h
      · cases h
        exact (readsRegular _).value hread
      · cases h
  · cases h

theorem regularUnlessNan_decoded {field : Value} (h : field.IsRegular) :
    (decoded field).RegularUnlessNan := by
  have hself : field.RegularUnlessNan := fun _ ↦ h
  cases field with
  | text s =>
      rw [decoded]
      cases hread : read? s.toList with
      | none => exact hself
      | some v => exact regularUnlessNan_of_read? hread
  | bytes bs =>
      rw [decoded]
      cases hread : (Text.ofBytes? bs).bind read? with
      | none => exact hself
      | some v =>
          obtain ⟨cs, -, hcs⟩ := Option.bind_eq_some_iff.mp hread
          exact regularUnlessNan_of_read? hcs
  | _ => exact hself

end Json

end Criteria
