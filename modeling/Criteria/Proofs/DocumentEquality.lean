import Criteria.Proofs.Operands
import Criteria.Proofs.ReadValues

/-!
# Equality of documents

Two documents are the same when they have the same single values at the same places: lists are
compared item by item, and objects have the same names in any order.  The evaluation takes a truth
value for the number that it counts as, and makes no other mistake.  Documents that it finds equal
contain each other.
-/

namespace Criteria

/-! ## Operators made of an operand -/

/-- What a compiler makes of an operand, under the token of an operator. -/
def Operator.Makes (o : Operator) (operand : Value) (op : FindOperator) : Prop :=
  ∃ registry fieldAlias ids ids',
    compileFind registry fieldAlias (.dict [(.text o.token, operand)]) ids = .ok op ids'

/-- An operator for a relation keeps its operand, which is not missing. -/
theorem Operator.IsRelation.eq_raw_of_makes {o : Operator} (ho : o.IsRelation) {operand : Value}
    {op : FindOperator} (h : o.Makes operand op) : operand ≠ .null ∧
      ∃ template parameters, op = .raw operand template parameters (some o) := by
  obtain ⟨registry, fieldAlias, ids, ids', hop⟩ := h
  obtain ⟨a, ha, rfl, -⟩ := compileFind_eq_ok_iff.mp hop
  obtain ⟨hnull, -, c, hc, rfl⟩ := admission_object_eq_ok_iff.mp ha
  refine ⟨hnull, ?_⟩
  rcases ho with rfl | rfl | rfl
  all_goals
    obtain ⟨⟨value, json⟩, hdocument, rfl⟩ := Option.map_eq_some_iff.mp hc
    obtain ⟨written, -, hwritten⟩ := Option.map_eq_some_iff.mp hdocument
    obtain ⟨rfl, rfl⟩ := Prod.mk.inj hwritten
    exact ⟨_, _, rfl⟩

namespace Memory

open Value (entriesOf IsJson IsRegular)
open Relation (ReflTransGen)

theorem evaluate_of_makes {registry : Registry} {o : Operator} (ho : o.IsRelation)
    (hregistered : o ∈ registry.origins) {operand : Value} {op : FindOperator}
    (h : o.Makes operand op) (field : Value) :
    evaluate registry op field = evaluateRaw o operand field := by
  obtain ⟨-, template, parameters, rfl⟩ := ho.eq_raw_of_makes h
  exact evaluate_relation hregistered operand template parameters field

theorem unlessNull_eq_ok_true_iff {field : Value} {test : Except Fault Bool} :
    unlessNull field test = .ok true ↔ field.isNull = false ∧ test = .ok true := by
  rw [unlessNull]
  cases field.isNull <;> simp

theorem ofVerdict_eq_ok_true_iff {verdict : Verdict} :
    Fault.ofVerdict verdict = .ok true ↔ verdict = .yes := by
  cases verdict <;> simp [Fault.ofVerdict]

/-! ## Same documents -/

/-- Documents with related single values at the same places. -/
inductive Alike (related : Value → Value → Prop) : Value → Value → Prop where
  | single {v w : Value} (h : related v w) : Alike related v w
  | list {items others : List Value} (hlength : items.length = others.length)
      (h : ∀ p ∈ items.zip others, Alike related p.1 p.2) :
      Alike related (.list items) (.list others)
  | dict {members others : List (String × Value)}
      (hnames : ∀ name, name ∈ members.map (·.1) ↔ name ∈ others.map (·.1))
      (h : ∀ name v w, (name, v) ∈ members → (name, w) ∈ others → Alike related v w) :
      Alike related (.dict (entriesOf members)) (.dict (entriesOf others))

/-- One document, in which the members of objects may be in different orders. -/
def SameDocument (v w : Value) : Prop := Alike SameSingle v w

/-- Single values that count as the same. -/
def Counted (v w : Value) : Prop := SameSingle v w ∨ Mixed v w

/-- The parts of two documents that stand at the same place, one level down. -/
inductive Opposite : Value × Value → Value × Value → Prop where
  | items {items others : List Value} {p : Value × Value} (h : p ∈ items.zip others) :
      Opposite (.list items, .list others) p
  | members {members others : List (String × Value)} {name : String} {v w : Value}
      (hv : (name, v) ∈ members) (hw : (name, w) ∈ others) :
      Opposite (.dict (entriesOf members), .dict (entriesOf others)) (v, w)

/-- Somewhere a truth value stands opposite the number that it counts as. -/
def Confounds (v w : Value) : Prop :=
  ∃ p, ReflTransGen Opposite (v, w) p ∧ Mixed p.1 p.2

theorem Alike.mono {related others : Value → Value → Prop} (himp : ∀ v w, related v w → others v w)
    {v w : Value} (h : Alike related v w) : Alike others v w := by
  induction h with
  | single h => exact .single (himp _ _ h)
  | list hlength _ ih => exact .list hlength ih
  | dict hnames _ ih => exact .dict hnames ih

/-- Documents that count as the same are the same, unless a truth value stands opposite a number. -/
theorem sameDocument_or_confounds {v w : Value} (h : Alike Counted v w) :
    SameDocument v w ∨ Confounds v w := by
  by_cases hconfounds : Confounds v w
  · exact Or.inr hconfounds
  refine Or.inl ?_
  induction h with
  | @single v w h => exact .single (h.resolve_right fun hmixed ↦ hconfounds ⟨_, .refl, hmixed⟩)
  | list hlength _ ih =>
      refine .list hlength fun p hp ↦ ih p hp ?_
      rintro ⟨q, hq, hmixed⟩
      exact hconfounds ⟨q, hq.head (.items hp), hmixed⟩
  | dict hnames _ ih =>
      refine .dict hnames fun name v w hv hw ↦ ih name v w hv hw ?_
      rintro ⟨q, hq, hmixed⟩
      exact hconfounds ⟨q, hq.head (.members hv hw), hmixed⟩

/-! ## What the evaluation finds equal -/

theorem equality_eq_yes_iff_counted {v w : Value} (hv : v.IsJson) (hw : w.IsJson)
    (hsingle : isContainer v = false) : v.equality w = .yes ↔ Counted v w := by
  constructor
  · intro h
    obtain ⟨s, hs⟩ := exists_single? hv hsingle
    obtain ⟨t, ht, -⟩ := (equality_single_iff hv hw hs).mp h
    exact (equality_eq_yes_iff hv hw (isContainer_of_single? ht)).mp h
  · intro h
    have hother : isContainer w = false := by
      rcases h with ⟨s, -, hs⟩ | ⟨b, ⟨-, hs⟩ | ⟨hs, -⟩⟩
      all_goals exact isContainer_of_single? hs
    exact (equality_eq_yes_iff hv hw hother).mpr h

theorem alike_single_iff {related : Value → Value → Prop} {v w : Value}
    (hsingle : isContainer v = false) : Alike related v w ↔ related v w := by
  refine ⟨fun h ↦ ?_, .single⟩
  cases h with
  | single h => exact h
  | list => cases hsingle
  | dict => cases hsingle

theorem equality_entriesOf_iff {members others : List (String × Value)}
    (hmembers : (members.map (·.1)).Nodup) (hothers : (others.map (·.1)).Nodup)
    (hvalues : ∀ m ∈ members, m.2.IsRegular) :
    (Value.dict (entriesOf members)).equality (.dict (entriesOf others)) = .yes ↔
      (∀ name, name ∈ members.map (·.1) ↔ name ∈ others.map (·.1)) ∧
      ∀ name v w, (name, v) ∈ members → (name, w) ∈ others → v.equality w = .yes := by
  have hkeys := Value.hasDistinctKeys_entriesOf hmembers
  have hkeys' := Value.hasDistinctKeys_entriesOf hothers
  have hpartners : (∀ e ∈ entriesOf members, ∃ f ∈ entriesOf others,
      f.1.identity? = e.1.identity? ∧ e.2.equality f.2 = .yes) ↔
      ∀ m ∈ members, ∃ w, (m.1, w) ∈ others ∧ m.2.equality w = .yes :=
    List.forall_mem_map.trans (forall₂_congr fun m _ ↦
      Value.exists_mem_entriesOf_iff fun w ↦ m.2.equality w = .yes)
  rw [Value.IsRegular.equality_dict_iff hkeys hkeys' (List.forall_mem_map.mpr hvalues), hpartners,
    entriesOf, entriesOf, List.length_map,
    List.length_map]
  constructor
  · rintro ⟨hlength, hfound⟩
    have hnamed : ∀ n ∈ others, ∃ m ∈ members, m.1 = n.1 :=
      Value.exists_name_of_length_le hmembers hlength.ge fun m hm ↦
        (hfound m hm).elim fun w hw ↦ ⟨_, hw.1, rfl⟩
    refine ⟨fun name ↦ ⟨fun hname ↦ ?_, fun hname ↦ ?_⟩, fun name v w hv hw ↦ ?_⟩
    · obtain ⟨m, hm, rfl⟩ := List.mem_map.mp hname
      exact (hfound m hm).elim fun w hw ↦ List.mem_map.mpr ⟨_, hw.1, rfl⟩
    · obtain ⟨n, hn, rfl⟩ := List.mem_map.mp hname
      exact List.mem_map.mpr (hnamed n hn)
    · obtain ⟨u, hu, hvalue⟩ := hfound _ hv
      have hone := List.inj_on_of_nodup_map hothers hu hw rfl
      exact (Prod.mk.inj hone).2 ▸ hvalue
  · rintro ⟨hnames, hvalues⟩
    have hperm := (List.perm_ext_iff_of_nodup hmembers hothers).mpr fun name ↦ hnames name
    refine ⟨by simpa using hperm.length_eq, fun m hm ↦ ?_⟩
    obtain ⟨n, hn, hname⟩ := List.mem_map.mp ((hnames m.1).mp (List.mem_map_of_mem hm))
    have hother : (m.1, n.2) ∈ others := hname ▸ hn
    exact ⟨n.2, hother, hvalues m.1 m.2 n.2 hm hother⟩

/-- Documents are found equal when they count as the same. -/
theorem equality_eq_yes_iff_alike {v w : Value} (hv : v.IsJson) (hw : w.IsJson) :
    v.equality w = .yes ↔ Alike Counted v w := by
  induction hv using isJson_induction generalizing w with
  | single v hv hsingle =>
      rw [equality_eq_yes_iff_counted hv hw hsingle, alike_single_iff hsingle]
  | list items hitems ih =>
      have hlist : ∀ others : List Value, (Value.list items).equality (.list others) = .yes ↔ _ :=
        fun others ↦ Value.IsRegular.equality_list_iff fun v hv ↦ (hitems v hv).isRegular
      constructor
      · intro h
        cases hw with
        | list hothers =>
            obtain ⟨hlength, hpairs⟩ := List.forall₂_iff_zip.mp ((hlist _).mp h)
            refine .list hlength fun p hp ↦ ?_
            have hmem := List.of_mem_zip hp
            exact (ih p.1 hmem.1 (hothers p.2 hmem.2)).mp (hpairs hp)
        | _ => cases h
      · intro h
        cases h with
        | single h =>
            obtain ⟨s, hs, -⟩ | ⟨b, ⟨hs, -⟩ | ⟨-, hs⟩⟩ := h
            all_goals cases hs
        | list hlength hpairs =>
            refine (hlist _).mpr (List.forall₂_iff_zip.mpr ⟨hlength, fun hp ↦ ?_⟩)
            have hmem := List.of_mem_zip hp
            exact (ih _ hmem.1 (hw.items _ hmem.2)).mpr (hpairs _ hp)
  | dict members hnames hmembers ih =>
      have hregular : ∀ m ∈ members, m.2.IsRegular := fun m hm ↦ (hmembers m hm).isRegular
      constructor
      · intro h
        cases hw with
        | dict hothers hvalues =>
            obtain ⟨hsame, hequal⟩ := (equality_entriesOf_iff hnames hothers hregular).mp h
            refine .dict hsame fun name v w hv hw ↦ ?_
            exact (ih _ hv (hvalues _ hw)).mp (hequal name v w hv hw)
        | _ => cases h
      · intro h
        generalize hdict : Value.dict (entriesOf members) = v at h
        cases h with
        | single h =>
            subst hdict
            obtain ⟨s, hs, -⟩ | ⟨b, ⟨hs, -⟩ | ⟨-, hs⟩⟩ := h
            all_goals cases hs
        | list => cases hdict
        | dict hsame halike =>
            obtain rfl := Value.entriesOf_inj (Value.dict.inj hdict)
            obtain ⟨hothers, hvalues⟩ := hw.members
            refine (equality_entriesOf_iff hnames hothers hregular).mpr
              ⟨hsame, fun name v w hv hw ↦ ?_⟩
            exact (ih _ hv (hvalues _ hw)).mpr (halike name v w hv hw)

/-! ## Fields that hold documents -/

/-- A field that holds a document: the document itself, when that is no text, or its text. -/
def HoldsDocument (field d : Value) : Prop :=
  (field = d ∧ ∀ s, d ≠ .text s) ∨ (∃ s, field = .text s ∧ Json.read? s.toList = some d) ∨
    ∃ bs, field = .bytes bs ∧ (Text.ofBytes? bs).bind Json.read? = some d

theorem decoded_of_holdsDocument {field d : Value} (hd : d.IsJson) (h : HoldsDocument field d) :
    Json.decoded field = d := by
  rcases h with ⟨rfl, htext⟩ | ⟨s, rfl, hread⟩ | ⟨bs, rfl, hread⟩
  · exact Json.decoded_eq_self hd.isWritable htext
  · exact Json.decoded_of_read? hread
  · rw [Json.decoded, hread, Option.getD_some]

theorem evaluateRaw_jsonEquals {operand : Value} (hnull : operand ≠ .null) (field : Value) :
    evaluateRaw .jsonEquals operand field =
      Fault.ofVerdict ((Json.decoded field).equality operand) := by
  rw [evaluateRaw, unlessNull]
  split
  · next hmissing =>
      -- Nothing but a missing operand would equal the missing value.
      obtain rfl := Value.isNull_iff.mp hmissing
      have hverdict : (Json.decoded .null).equality operand = .ofBool operand.isNull := rfl
      have hoperand : operand.isNull = false := by
        rwa [← Bool.not_eq_true, Value.isNull_iff]
      rw [hverdict, hoperand]
      rfl
  · rfl

/-- An operand that is a document is evaluated on every field that holds one, and the two are found
equal just when they count as the same.  So all that are the same are found equal, and of those that
are not only such in which a truth value stands opposite the number that it counts as. -/
theorem equality_finds_same_document {registry : Registry}
    (hregistered : .jsonEquals ∈ registry.origins) {v d field : Value} {op : FindOperator}
    (hv : v.IsJson) (hop : Operator.jsonEquals.Makes v op) (hd : d.IsJson)
    (hfield : HoldsDocument field d) :
    ∃ b, evaluate registry op field = .ok b ∧ (b = true ↔ Alike Counted d v) ∧
      (SameDocument d v → b = true) ∧ (b = true → SameDocument d v ∨ Confounds d v) := by
  have hrelation : Operator.jsonEquals.IsRelation := Or.inr (Or.inr rfl)
  have hnull := (hrelation.eq_raw_of_makes hop).1
  obtain ⟨b, hb⟩ : ∃ b : Bool, d.equality v = .ofBool b := by
    cases hverdict : d.equality v with
    | yes => exact ⟨true, rfl⟩
    | no => exact ⟨false, rfl⟩
    | signals => exact absurd hverdict (hd.isRegular.equality_ne_signals hv.isRegular)
  have halike : b = true ↔ Alike Counted d v := by
    rw [← equality_eq_yes_iff_alike hd hv, hb, Verdict.ofBool_eq_yes_iff]
  refine ⟨b, ?_, halike, fun hsame ↦ halike.mpr (hsame.mono fun _ _ ↦ Or.inl),
    fun h ↦ sameDocument_or_confounds (halike.mp h)⟩
  rw [evaluate_of_makes hrelation hregistered hop, evaluateRaw_jsonEquals hnull,
    decoded_of_holdsDocument hd hfield, hb]
  cases b <;> rfl

/-- The text of an object, and the object with its members turned round and a binary number for the
whole one. -/
theorem equality_finds_same_document_text : ∃ (v d : Value) (op : FindOperator) (text : String),
    v = .dict (entriesOf [("b", .bool true),
      ("a", .list [.float (.finite false 4503599627370496 (-52)), .null])]) ∧
    d = .dict (entriesOf [("a", .list [.int 1, .null]), ("b", .bool true)]) ∧
    v.IsJson ∧ d.IsJson ∧ Operator.jsonEquals.Makes v op ∧ HoldsDocument (.text text) d ∧
      SameDocument d v ∧ evaluate .full op (.text text) = .ok true := by
  have hone : Number.Double.IsNormal 4503599627370496 (-52) := by
    constructor <;> norm_num
  have hv : (Value.dict (entriesOf [("b", .bool true),
      ("a", .list [.float (.finite false 4503599627370496 (-52)), .null])])).IsJson := by
    refine .dict (by decide) ?_
    simp only [List.forall_mem_cons]
    refine ⟨.bool true, .list ?_, List.forall_mem_nil _⟩
    simp only [List.forall_mem_cons]
    exact ⟨.float hone false, .null, List.forall_mem_nil _⟩
  have hd : (Value.dict (entriesOf
      [("a", .list [.int 1, .null]), ("b", .bool true)])).IsStandard := by
    refine .dict (by decide) ?_
    simp only [List.forall_mem_cons]
    refine ⟨.list ?_, .bool true, List.forall_mem_nil _⟩
    simp only [List.forall_mem_cons]
    exact ⟨.int (by decide), .null, List.forall_mem_nil _⟩
  have hnumber : SameSingle (.int 1) (.float (.finite false 4503599627370496 (-52))) := by
    refine ⟨.number 1, by simp [single?, Value.number?], ?_⟩
    norm_num [single?, Value.number?, Number.Double.finiteValue]
  have hsame : SameDocument (.dict (entriesOf [("a", .list [.int 1, .null]), ("b", .bool true)]))
      (.dict (entriesOf [("b", .bool true),
        ("a", .list [.float (.finite false 4503599627370496 (-52)), .null])])) := by
    refine .dict (fun name ↦ by simp [or_comm]) fun name v w hv hw ↦ ?_
    simp only [List.mem_cons, List.not_mem_nil, or_false, Prod.mk.injEq] at hv hw
    rcases hv with ⟨rfl, rfl⟩ | ⟨rfl, rfl⟩ <;> rcases hw with ⟨hname, rfl⟩ | ⟨hname, rfl⟩
    · exact absurd hname (by decide)
    · refine .list rfl ?_
      simp only [List.zip_cons_cons, List.zip_nil_left, List.forall_mem_cons]
      exact ⟨.single hnumber, .single ⟨.null, rfl, rfl⟩, List.forall_mem_nil _⟩
    · exact .single ⟨.truth true, rfl, rfl⟩
    · exact absurd hname (by decide)
  obtain ⟨op, hop⟩ : ∃ op, Operator.jsonEquals.Makes (.dict (entriesOf [("b", .bool true),
      ("a", .list [.float (.finite false 4503599627370496 (-52)), .null])])) op :=
    ⟨_, .full, .text "meta", .standard, _, rfl⟩
  obtain ⟨text, -, hread⟩ := Json.exists_write? hd
  have hfield : HoldsDocument (.text text)
      (.dict (entriesOf [("a", .list [.int 1, .null]), ("b", .bool true)])) :=
    Or.inr (Or.inl ⟨text, rfl, hread⟩)
  obtain ⟨b, hb, -, htrue, -⟩ :=
    equality_finds_same_document (by decide : Operator.jsonEquals ∈ Registry.full.origins) hv hop
      hd.isJson hfield
  exact ⟨_, _, op, text, rfl, rfl, hv, hd.isJson, hop, hfield, hsame, htrue hsame ▸ hb⟩

/-- A truth value is found equal to a number, although they are not the same. -/
theorem equality_takes_truth_for_number : ∃ op : FindOperator,
    Operator.jsonEquals.Makes (.int 1) op ∧ HoldsDocument (.bool true) (.bool true) ∧
      ¬SameDocument (.bool true) (.int 1) ∧ evaluate .full op (.bool true) = .ok true := by
  refine ⟨_, ⟨.full, .text "meta", .standard, _, rfl⟩, Or.inl ⟨rfl, nofun⟩, fun h ↦ ?_, rfl⟩
  obtain ⟨s, htruth, hnumber⟩ := (alike_single_iff rfl).mp h
  cases htruth
  cases hnumber

/-! ## Equal documents contain each other -/

/-- Whatever is found equal to an operand contains it and is contained in it, and so of all values
that are made of single values, lists, tuples and dictionaries, with nothing that is not a
number. -/
theorem equal_documents_contain_each_other :
    (∀ x y : Value, x.IsRegular → y.IsRegular → x.equality y = .yes → contains x y = .yes) ∧
    ∀ (registry : Registry), (∀ o, Operator.IsRelation o → o ∈ registry.origins) →
      ∀ v field : Value, v.IsRegular → field.IsRegular → ¬(Json.decoded field).HasNan →
      ∀ equals containing contained : FindOperator, Operator.jsonEquals.Makes v equals →
        Operator.jsonContains.Makes v containing → Operator.jsonContained.Makes v contained →
        evaluate registry equals field = .ok true →
        evaluate registry containing field = .ok true ∧
          evaluate registry contained field = .ok true := by
  refine ⟨fun x y hx hy ↦ contains_of_equality hx hy, ?_⟩
  intro registry hregistered v field hv hfield hnan equals containing contained hequals hcontaining
    hcontained h
  have hevaluate : ∀ o, Operator.IsRelation o → ∀ op, o.Makes v op →
      evaluate registry op field = evaluateRaw o v field :=
    fun o ho op hop ↦ evaluate_of_makes ho (hregistered o ho) hop field
  have hdecoded := Json.regularUnlessNan_decoded hfield hnan
  rw [hevaluate _ (Or.inr (Or.inr rfl)) _ hequals, evaluateRaw, unlessNull_eq_ok_true_iff,
    ofVerdict_eq_ok_true_iff] at h
  obtain ⟨hpresent, hequal⟩ := h
  rw [hevaluate _ (Or.inl rfl) _ hcontaining, hevaluate _ (Or.inr (Or.inl rfl)) _ hcontained,
    evaluateRaw, evaluateRaw, unlessNull_eq_ok_true_iff, unlessNull_eq_ok_true_iff,
    ofVerdict_eq_ok_true_iff, ofVerdict_eq_ok_true_iff]
  exact ⟨⟨hpresent, contains_of_equality hdecoded hv hequal⟩, hpresent,
    contains_of_equality hv hdecoded (hdecoded.equality_symm hv hequal)⟩

/-- A tuple in an object, with a truth value for a number. -/
theorem equal_documents_contain_each_other_tuple :
    ∃ (v field : Value) (equals containing contained : FindOperator),
      v = .dict [(.text "a", .tuple [.int 1, .bool true])] ∧
      field = .dict [(.text "a", .tuple [.bool true, .decimal (.finite ⟨false, 10, -1⟩)])] ∧
      Operator.jsonEquals.Makes v equals ∧ Operator.jsonContains.Makes v containing ∧
      Operator.jsonContained.Makes v contained ∧ evaluate .full equals field = .ok true ∧
      evaluate .full containing field = .ok true ∧ evaluate .full contained field = .ok true := by
  have hregular : ∀ (a b : Value) (i j : Value.Identity), a.plainIdentity? = some i →
      b.plainIdentity? = some j → (Value.dict [(.text "a", .tuple [a, b])]).IsRegular := by
    intro a b i j ha hb
    refine .dict ⟨List.forall_mem_singleton.mpr ⟨_, rfl⟩, List.pairwise_singleton _ _⟩
      (List.forall_mem_singleton.mpr (.tuple (List.forall_mem_cons.mpr ⟨.plain ha,
        List.forall_mem_singleton.mpr (.plain hb)⟩)))
  have hv := hregular (.int 1) (.bool true) _ _ rfl rfl
  have hfield := hregular (.bool true) (.decimal (.finite ⟨false, 10, -1⟩)) _ _ rfl rfl
  have hregistered : ∀ o, Operator.IsRelation o → o ∈ Registry.full.origins := by
    rintro o (rfl | rfl | rfl) <;> decide
  obtain ⟨equals, containing, contained, hequals, hcontaining, hcontained, hequal⟩ :
      ∃ equals containing contained,
        Operator.jsonEquals.Makes (.dict [(.text "a", .tuple [.int 1, .bool true])]) equals ∧
        Operator.jsonContains.Makes (.dict [(.text "a", .tuple [.int 1, .bool true])])
          containing ∧
        Operator.jsonContained.Makes (.dict [(.text "a", .tuple [.int 1, .bool true])])
          contained ∧
        evaluate .full equals (.dict [(.text "a", .tuple [.bool true,
          .decimal (.finite ⟨false, 10, -1⟩)])]) = .ok true :=
    ⟨_, _, _, ⟨.full, .text "meta", .standard, _, rfl⟩, ⟨.full, .text "meta", .standard, _, rfl⟩,
      ⟨.full, .text "meta", .standard, _, rfl⟩, rfl⟩
  have hcontain := equal_documents_contain_each_other.2 .full hregistered _ _ hv hfield
    hfield.not_hasNan equals containing contained hequals hcontaining hcontained hequal
  exact ⟨_, _, equals, containing, contained, rfl, rfl, hequals, hcontaining, hcontained, hequal,
    hcontain⟩

end Memory

end Criteria
