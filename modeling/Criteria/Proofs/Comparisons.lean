import Criteria.Proofs.Documents
import Criteria.Proofs.Regular

/-!
# Comparisons of documents

Values that can be written as documents are regular, so comparing them never signals, and such a
value equals itself and contains itself.  This does not need the documents to be as they are read:
there may be tuples, and keys that are not texts.
-/

namespace Criteria

namespace Value

/-! ## Documents -/

/-- A document: what is made of texts, numbers, truth values, missing values, lists and objects. -/
inductive IsJson : Value → Prop where
  | null : IsJson .null
  | bool (b : Bool) : IsJson (.bool b)
  | int (n : Int) : IsJson (.int n)
  | float {mantissa : Nat} {exponent : Int} (h : Number.Double.IsNormal mantissa exponent)
      (negative : Bool) : IsJson (.float (.finite negative mantissa exponent))
  | text (s : String) : IsJson (.text s)
  | list {items : List Value} (h : ∀ v ∈ items, IsJson v) : IsJson (.list items)
  | dict {members : List (String × Value)} (hnames : (members.map (·.1)).Nodup)
      (h : ∀ m ∈ members, IsJson m.2) : IsJson (.dict (entriesOf members))

/-- What has the form of a document, with numbers of any length: there may be tuples for lists, and
the keys of an object are those that have a text, no two of them equal. -/
inductive IsWritable : Value → Prop where
  | null : IsWritable .null
  | bool (b : Bool) : IsWritable (.bool b)
  | int (n : Int) : IsWritable (.int n)
  | float {mantissa : Nat} {exponent : Int} (h : Number.Double.IsNormal mantissa exponent)
      (negative : Bool) : IsWritable (.float (.finite negative mantissa exponent))
  | text (s : String) : IsWritable (.text s)
  | list {items : List Value} (h : ∀ v ∈ items, IsWritable v) : IsWritable (.list items)
  | tuple {items : List Value} (h : ∀ v ∈ items, IsWritable v) : IsWritable (.tuple items)
  | dict {entries : List (Value × Value)} (hkeys : ∀ e ∈ entries, (Json.keyChars? e.1).isSome)
      (hdistinct : entries.Pairwise fun e f ↦ f.1.equal e.1 = false)
      (h : ∀ e ∈ entries, IsWritable e.2) : IsWritable (.dict entries)

theorem equal_text (name other : String) :
    (Value.text name).equal (.text other) = (name == other) :=
  Verdict.isYes_ofBool _

theorem mem_entriesOf {members : List (String × Value)} {e : Value × Value}
    (h : e ∈ entriesOf members) : ∃ m ∈ members, e = (.text m.1, m.2) := by
  obtain ⟨m, hm, rfl⟩ := List.mem_map.mp h
  exact ⟨m, hm, rfl⟩

theorem pairwise_entriesOf_iff {members : List (String × Value)} :
    ((entriesOf members).Pairwise fun e f ↦ f.1.equal e.1 = false) ↔
      (members.map (·.1)).Nodup := by
  simp only [entriesOf, List.Nodup, List.pairwise_map, equal_text, beq_eq_false_iff_ne]
  exact List.Pairwise.iff fun m n ↦ ne_comm

theorem entriesOf_inj {members others : List (String × Value)}
    (h : entriesOf members = entriesOf others) : members = others := by
  refine List.map_injective_iff.mpr (fun m n hmn ↦ ?_) h
  obtain ⟨hname, hvalue⟩ := Prod.mk.inj hmn
  exact Prod.ext (Value.text.inj hname) hvalue

theorem IsJson.items {items : List Value} (h : (Value.list items).IsJson) :
    ∀ v ∈ items, v.IsJson := by
  cases h with
  | list hitems => exact hitems

theorem IsJson.members {members : List (String × Value)}
    (h : (Value.dict (entriesOf members)).IsJson) :
    (members.map (·.1)).Nodup ∧ ∀ m ∈ members, m.2.IsJson := by
  generalize hdict : Value.dict (entriesOf members) = v at h
  cases h with
  | dict hnames hmembers =>
      obtain rfl := entriesOf_inj (Value.dict.inj hdict)
      exact ⟨hnames, hmembers⟩
  | _ => cases hdict

theorem IsJson.exists_name {entries : List (Value × Value)} (h : (Value.dict entries).IsJson) :
    ∀ e ∈ entries, ∃ name, e.1 = .text name := by
  generalize hdict : Value.dict entries = v at h
  cases h with
  | dict _ _ =>
      obtain rfl := Value.dict.inj hdict
      intro e he
      obtain ⟨m, -, rfl⟩ := mem_entriesOf he
      exact ⟨m.1, rfl⟩
  | _ => cases hdict

theorem IsStandard.isJson {v : Value} (h : v.IsStandard) : v.IsJson := by
  induction h with
  | null => exact .null
  | bool b => exact .bool b
  | int _ => exact .int _
  | float hnormal negative => exact .float hnormal negative
  | text s => exact .text s
  | list _ ih => exact .list ih
  | dict hnames _ ih => exact .dict hnames ih

theorem IsJson.isWritable {v : Value} (h : v.IsJson) : v.IsWritable := by
  induction h with
  | null => exact .null
  | bool b => exact .bool b
  | int n => exact .int n
  | float hnormal negative => exact .float hnormal negative
  | text s => exact .text s
  | list _ ih => exact .list ih
  | dict hnames _ ih =>
      refine .dict (fun e he ↦ ?_) (pairwise_entriesOf_iff.mpr hnames) fun e he ↦ ?_
      · obtain ⟨m, -, rfl⟩ := mem_entriesOf he
        rfl
      · obtain ⟨m, hm, rfl⟩ := mem_entriesOf he
        exact ih m hm

theorem IsStandard.isWritable {v : Value} (h : v.IsStandard) : v.IsWritable := h.isJson.isWritable

theorem hasIdentity_of_keyChars? {key : Value} (h : (Json.keyChars? key).isSome) :
    key.HasIdentity := by
  cases key with
  | null | bool _ | int _ | text _ => exact ⟨_, rfl⟩
  | float x =>
      cases x with
      | finite negative mantissa exponent => exact ⟨_, rfl⟩
      | _ => cases h
  | _ => cases h

theorem IsWritable.isRegular {v : Value} (h : v.IsWritable) : v.IsRegular := by
  induction h with
  | null => exact .plain rfl
  | bool b => exact .plain rfl
  | int n => exact .plain rfl
  | float _ negative => exact .plain rfl
  | text s => exact .plain rfl
  | list _ ih => exact .list ih
  | tuple _ ih => exact .tuple ih
  | dict hkeys hdistinct _ ih =>
      exact .dict ⟨fun e he ↦ hasIdentity_of_keyChars? (hkeys e he), hdistinct⟩ ih

theorem IsJson.isRegular {v : Value} (h : v.IsJson) : v.IsRegular := h.isWritable.isRegular

/-- The members of an object have different names as keys. -/
theorem hasDistinctKeys_entriesOf {members : List (String × Value)}
    (hnames : (members.map (·.1)).Nodup) : HasDistinctKeys (entriesOf members) := by
  refine ⟨fun e he ↦ ?_, pairwise_entriesOf_iff.mpr hnames⟩
  obtain ⟨m, -, rfl⟩ := mem_entriesOf he
  exact ⟨_, rfl⟩

/-- Only a text is taken for a text. -/
theorem eq_text_of_identity? {key : Value} {name : String}
    (h : key.identity? = (Value.text name).identity?) : key = .text name := by
  cases key <;> simp_all [identity?, plainIdentity?]

/-- Among the members of an object, the keys that are taken for a name are those of that name. -/
theorem exists_mem_entriesOf_iff {held : List (String × Value)} {name : String}
    (allowed : Value → Prop) :
    (∃ e ∈ entriesOf held, e.1.identity? = (Value.text name).identity? ∧ allowed e.2) ↔
      ∃ v, (name, v) ∈ held ∧ allowed v := by
  constructor
  · rintro ⟨e, he, hsame, hvalue⟩
    obtain ⟨m, hm, rfl⟩ := mem_entriesOf he
    obtain rfl := Value.text.inj (eq_text_of_identity? hsame)
    exact ⟨m.2, hm, hvalue⟩
  · rintro ⟨v, hv, hvalue⟩
    exact ⟨_, List.mem_map_of_mem hv, rfl, hvalue⟩

/-- A value that can be written equals itself. -/
theorem IsWritable.equality_self {v : Value} (h : v.IsWritable) : v.equality v = .yes :=
  h.isRegular.equality_self

theorem IsStandard.equality_self {v : Value} (h : v.IsStandard) : v.equality v = .yes :=
  h.isWritable.equality_self

end Value

/-- A value that can be written contains itself. -/
theorem Memory.contains_self {v : Value} (h : v.IsWritable) : contains v v = .yes :=
  contains_of_equality h.isRegular h.isRegular h.equality_self

end Criteria
