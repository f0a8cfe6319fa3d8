import Criteria.Proofs.Rationals
import Criteria.Value.Entries

/-!
# Identities

A key is a value without parts, or a tuple of keys, that equals itself.  Two keys are equal just
when they have one identity, which for a number is the amount it stands for and for a time with an
offset the instant.  So equality is an equivalence on keys, a dictionary with different keys has at
most one entry for a key, and two dictionaries are equal when each entry of one has an equal partner
in the other and they are of one size.
-/

namespace Criteria

/-! ## Verdicts -/

namespace Verdict

theorem ofBool_ne_signals (b : Bool) : ofBool b ≠ signals := by cases b <;> exact nofun

theorem ofBool_eq_yes_iff {b : Bool} : ofBool b = yes ↔ b = true := by cases b <;> simp [ofBool]

theorem isYes_iff {v : Verdict} : v.isYes = true ↔ v = yes := by cases v <;> simp [isYes]

end Verdict

theorem Calendar.DateTime.equal_iff {t u : DateTime} :
    t.equal u = true ↔ t.offset.isSome = u.offset.isSome ∧
      t.clockMicros - t.offset.getD 0 = u.clockMicros - u.offset.getD 0 := by
  rw [equal, beq_iff_eq, compare?]
  cases t.offset <;> cases u.offset <;> simp

namespace Value

/-! ## Identities of keys -/

/-- What a key is taken for. -/
inductive Identity where
  | null
  | number (a : Number.Amount)
  | text (s : String)
  | bytes (bs : List UInt8)
  | date (d : Calendar.Date)
  | time (hasOffset : Bool) (micros : Int)
  | tuple (parts : List Identity)

/-- The amount of a number or a truth value. -/
def amount? (v : Value) : Option Number.Amount := v.quantity?.bind Number.Quantity.amount?

/-- The identity of a value without parts. -/
def plainIdentity? : Value → Option Identity
  | .null => some .null
  | .text s => some (.text s)
  | .bytes bs => some (.bytes bs)
  | .date d => some (.date d)
  | .datetime t => some (.time t.offset.isSome (t.clockMicros - t.offset.getD 0))
  | v => v.amount?.map .number

mutual

/-- The identity of a key. -/
def identity? : Value → Option Identity
  | .tuple items => (identities? items).map .tuple
  | v => v.plainIdentity?
termination_by structural v => v

/-- The identities of keys, if all of the values are keys. -/
def identities? : List Value → Option (List Identity)
  | [] => some []
  | v :: rest =>
    match identity? v, identities? rest with
    | some part, some parts => some (part :: parts)
    | _, _ => none
termination_by structural items => items

end

def HasIdentity (v : Value) : Prop := ∃ i, v.identity? = some i

/-! ## Numbers -/

theorem amount?_of_isSignalling {v : Value} (h : v.isSignalling = true) : v.amount? = none := by
  cases v with
  | decimal d =>
      cases d with
      | nan => rfl
      | _ => cases h
  | _ => cases h

theorem sameQuantity_eq_yes_iff {v w : Value} {a : Number.Amount} (h : v.amount? = some a) :
    sameQuantity v w = .yes ↔ w.amount? = some a := by
  obtain ⟨x, hx, ha⟩ := Option.bind_eq_some_iff.mp h
  have hsignalling : v.isSignalling = false := by
    by_contra hsignals
    rw [amount?_of_isSignalling (by simpa using hsignals)] at h
    cases h
  rw [sameQuantity, hx]
  cases hy : w.quantity? with
  | none => simp [amount?, hy]
  | some y =>
      cases hsignals : w.isSignalling with
      | true => simp [hsignalling, amount?_of_isSignalling hsignals]
      | false =>
          simp [hsignalling, Verdict.ofBool_eq_yes_iff, amount?, hy,
            Number.Quantity.equal_iff_amount? ha]

theorem plainIdentity?_eq_number_iff {v : Value} {a : Number.Amount} :
    v.plainIdentity? = some (.number a) ↔ v.amount? = some a := by
  cases v <;> simp [plainIdentity?, amount?, quantity?]

/-! ## Equality of keys -/

theorem equality_eq_yes_iff_plainIdentity? {v : Value} {i : Identity}
    (h : v.plainIdentity? = some i) (w : Value) :
    v.equality w = .yes ↔ w.plainIdentity? = some i := by
  have hnumber : v.equality w = sameQuantity v w → (∃ a, v.amount? = some a ∧ i = .number a) →
      (v.equality w = .yes ↔ w.plainIdentity? = some i) := by
    rintro hequality ⟨a, ha, rfl⟩
    rw [hequality, sameQuantity_eq_yes_iff ha, plainIdentity?_eq_number_iff]
  cases v with
  | bool b => exact hnumber rfl ⟨_, rfl, (Option.some.inj h).symm⟩
  | int n => exact hnumber rfl ⟨_, rfl, (Option.some.inj h).symm⟩
  | float x =>
      obtain ⟨a, ha, rfl⟩ := Option.map_eq_some_iff.mp h
      exact hnumber rfl ⟨a, ha, rfl⟩
  | decimal d =>
      obtain ⟨a, ha, rfl⟩ := Option.map_eq_some_iff.mp h
      exact hnumber rfl ⟨a, ha, rfl⟩
  | null =>
      obtain rfl := Option.some.inj h
      cases w <;> simp [equality, isNull, plainIdentity?, Verdict.ofBool_eq_yes_iff]
  | text s =>
      obtain rfl := Option.some.inj h
      cases w with
      | text t => simpa [equality, plainIdentity?, Verdict.ofBool_eq_yes_iff] using eq_comm
      | _ => simp [equality, plainIdentity?]
  | bytes bs =>
      obtain rfl := Option.some.inj h
      cases w with
      | bytes cs => simpa [equality, plainIdentity?, Verdict.ofBool_eq_yes_iff] using eq_comm
      | _ => simp [equality, plainIdentity?]
  | date d =>
      obtain rfl := Option.some.inj h
      cases w with
      | date e => simpa [equality, plainIdentity?, Verdict.ofBool_eq_yes_iff] using eq_comm
      | _ => simp [equality, plainIdentity?]
  | datetime t =>
      obtain rfl := Option.some.inj h
      cases w with
      | datetime u =>
          rw [equality, Verdict.ofBool_eq_yes_iff, Calendar.DateTime.equal_iff]
          simp [plainIdentity?, eq_comm]
      | _ => simp [equality, plainIdentity?]
  | _ => cases h

theorem forall₂_matching_iff {items others : List Value} :
    List.Forall₂ (fun v w ↦ v.matching w = .yes) items others ↔
      items.length = others.length ∧ ∀ verdict ∈ itemVerdicts items others, verdict = .yes := by
  induction items generalizing others with
  | nil => cases others <;> simp [itemVerdicts]
  | cons v rest ih =>
      cases others with
      | nil => simp
      | cons w others =>
          rw [List.forall₂_cons, ih, itemVerdicts, List.forall_mem_cons, List.length_cons,
            List.length_cons, Nat.add_right_cancel_iff]
          exact and_left_comm

theorem equality_list_iff {items others : List Value} :
    (Value.list items).equality (.list others) = .yes ↔
      List.Forall₂ (fun v w ↦ v.matching w = .yes) items others := by
  rw [equality, Verdict.all_eq_yes_iff, List.forall_mem_cons, Verdict.ofBool_eq_yes_iff, beq_iff_eq,
    forall₂_matching_iff]

theorem equality_tuple_iff {items others : List Value} :
    (Value.tuple items).equality (.tuple others) = .yes ↔
      List.Forall₂ (fun v w ↦ v.matching w = .yes) items others := by
  rw [equality, Verdict.all_eq_yes_iff, List.forall_mem_append, List.forall_mem_singleton,
    Verdict.ofBool_eq_yes_iff, beq_iff_eq, forall₂_matching_iff, and_comm]

theorem identities?_eq_some_iff {items : List Value} {parts : List Identity} :
    identities? items = some parts ↔
      List.Forall₂ (fun v i ↦ v.identity? = some i) items parts := by
  induction items generalizing parts with
  | nil => cases parts <;> simp [identities?]
  | cons v rest ih =>
      cases parts with
      | nil =>
          rw [identities?]
          split <;> simp
      | cons i parts =>
          rw [List.forall₂_cons, ← ih, identities?]
          cases v.identity? <;> cases identities? rest <;> simp

theorem forall₂_matching_iff_identity? {items others : List Value} {parts : List Identity}
    (hparts : List.Forall₂ (fun v i ↦ v.identity? = some i) items parts)
    (h : ∀ v ∈ items, ∀ w i, v.identity? = some i → (v.matching w = .yes ↔ w.identity? = some i)) :
    List.Forall₂ (fun v w ↦ v.matching w = .yes) items others ↔
      List.Forall₂ (fun w i ↦ w.identity? = some i) others parts := by
  induction hparts generalizing others with
  | nil => simp
  | @cons v i rest parts hi _ ih =>
      rw [List.forall_mem_cons] at h
      cases others with
      | nil => simp
      | cons w others => rw [List.forall₂_cons, List.forall₂_cons, h.1 w i hi, ih h.2]

theorem identity?_eq_plainIdentity? {v : Value} (h : ∀ items, v ≠ .tuple items) :
    v.identity? = v.plainIdentity? := by
  cases v with
  | tuple items => exact absurd rfl (h items)
  | _ => rfl

theorem identity?_eq_some_iff_plainIdentity? {v w : Value} {i : Identity}
    (h : v.plainIdentity? = some i) : w.identity? = some i ↔ w.plainIdentity? = some i := by
  cases w with
  | tuple items =>
      -- Only the identity of a tuple has parts.
      refine iff_of_false (fun hw ↦ ?_) nofun
      obtain ⟨parts, -, rfl⟩ := Option.map_eq_some_iff.mp hw
      cases v <;> simp [plainIdentity?] at h
  | _ => exact Iff.rfl

theorem quantity?_ne_nan_of_plainIdentity? {v : Value} {i : Identity}
    (h : v.plainIdentity? = some i) : v.quantity? ≠ some .nan := by
  intro hnan
  have hamount : v.amount? = none := by
    rw [amount?, hnan]
    rfl
  cases v <;> first | cases hnan | simp [plainIdentity?, hamount] at h

/-- What is not a number is no key. -/
theorem quantity?_ne_nan {v : Value} {i : Identity} (h : v.identity? = some i) :
    v.quantity? ≠ some .nan := by
  cases v with
  | tuple items => simp [quantity?]
  | _ => exact quantity?_ne_nan_of_plainIdentity? h

/-- A key equals what has its identity. -/
theorem equality_eq_yes_iff_identity? (v w : Value) (i : Identity) (h : v.identity? = some i) :
    v.equality w = .yes ↔ w.identity? = some i := by
  by_cases htuple : ∃ items, v = .tuple items
  · obtain ⟨items, rfl⟩ := htuple
    obtain ⟨parts, hparts, rfl⟩ := Option.map_eq_some_iff.mp h
    have hitems : ∀ item ∈ items, ∀ w i, item.identity? = some i →
        (item.matching w = .yes ↔ w.identity? = some i) := fun item _ w i hi ↦ by
      rw [matching_eq_equality (quantity?_ne_nan hi)]
      exact equality_eq_yes_iff_identity? item w i hi
    cases w with
    | tuple others =>
        rw [equality_tuple_iff,
          forall₂_matching_iff_identity? (identities?_eq_some_iff.mp hparts) hitems,
          ← identities?_eq_some_iff, identity?, Option.map_eq_some_iff]
        simp
    | _ => simp [equality, identity?, plainIdentity?]
  · have hplain : v.plainIdentity? = some i := by
      rwa [← identity?_eq_plainIdentity? fun items hv ↦ htuple ⟨items, hv⟩]
    rw [equality_eq_yes_iff_plainIdentity? hplain, identity?_eq_some_iff_plainIdentity? hplain]
termination_by sizeOf v

theorem equal_iff_identity? {v w : Value} {i : Identity} (h : v.identity? = some i) :
    v.equal w = true ↔ w.identity? = some i := by
  rw [equal, Verdict.isYes_iff, matching_eq_equality (quantity?_ne_nan h),
    equality_eq_yes_iff_identity? v w i h]

/-! ## Entries of dictionaries -/

/-- Entries under keys of which no two are equal, as a dictionary has them. -/
structure HasDistinctKeys (entries : List (Value × Value)) : Prop where
  keys : ∀ e ∈ entries, e.1.HasIdentity
  distinct : entries.Pairwise fun e f ↦ f.1.equal e.1 = false

namespace HasDistinctKeys

variable {entries : List (Value × Value)}

theorem nodup_identities (h : HasDistinctKeys entries) :
    (entries.map fun e ↦ e.1.identity?).Nodup := by
  refine List.pairwise_map.mpr (h.distinct.imp_of_mem fun {e f} _ hf hdistinct hsame ↦ ?_)
  obtain ⟨i, hi⟩ := h.keys f hf
  rw [(equal_iff_identity? hi).mpr (hsame.trans hi)] at hdistinct
  cases hdistinct

/-- What is found under a key is the entry whose key has its identity. -/
theorem find?_eq_some_iff (h : HasDistinctKeys entries) {key : Value} {i : Identity}
    (hkey : key.identity? = some i) {e : Value × Value} :
    entries.find? (fun f ↦ key.equal f.1) = some e ↔ e ∈ entries ∧ e.1.identity? = some i := by
  constructor
  · intro hfound
    have hequal := List.find?_some hfound
    exact ⟨List.mem_of_find?_eq_some hfound, (equal_iff_identity? hkey).mp hequal⟩
  · rintro ⟨he, hidentity⟩
    have hsome : (entries.find? fun f ↦ key.equal f.1).isSome :=
      List.find?_isSome.mpr ⟨e, he, (equal_iff_identity? hkey).mpr hidentity⟩
    obtain ⟨f, hf⟩ := Option.isSome_iff_exists.mp hsome
    have hequal := List.find?_some hf
    have hsame : f.1.identity? = e.1.identity? :=
      ((equal_iff_identity? hkey).mp hequal).trans hidentity.symm
    rw [hf, List.inj_on_of_nodup_map h.nodup_identities (List.mem_of_find?_eq_some hf) he hsame]

end HasDistinctKeys

/-- When as many things or fewer are named, and all of some different names are among theirs, there
are no other names. -/
theorem exists_name_of_length_le {α β ι : Type*} {named : List α} {others : List β} {f : α → ι}
    {g : β → ι} (hnames : (named.map f).Nodup) (hlength : others.length ≤ named.length)
    (h : ∀ a ∈ named, ∃ b ∈ others, g b = f a) : ∀ b ∈ others, ∃ a ∈ named, f a = g b := by
  classical
  have hsubset : named.map f ⊆ others.map g := by
    intro name hname
    obtain ⟨a, ha, rfl⟩ := List.mem_map.mp hname
    obtain ⟨b, hb, hsame⟩ := h a ha
    exact List.mem_map.mpr ⟨b, hb, hsame⟩
  have hperm : (named.map f).Perm (others.map g) :=
    (List.subperm_of_subset hnames hsubset).perm_of_length_le (by simpa using hlength)
  exact fun b hb ↦ List.mem_map.mp (hperm.mem_iff.mpr (List.mem_map_of_mem hb))

end Value

end Criteria
