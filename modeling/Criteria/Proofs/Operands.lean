import Criteria.Proofs.BoundDocuments
import Criteria.Proofs.Containment

/-!
# Operands with one text

A tuple is written like a list, and a number as a key like its digits, so two operands may bind one
text in a query.  In memory they are evaluated alike only when both are what the text is read as:
whatever equals a document as it is read, or is contained in one, is itself as it would be read.
-/

namespace Criteria

namespace Value

/-! ## Keys -/

/-- Entries with different keys, all of them texts, are those of an object. -/
theorem exists_entriesOf {entries : List (Value × Value)}
    (hdistinct : entries.Pairwise fun e f ↦ f.1.equal e.1 = false)
    (hkeys : ∀ e ∈ entries, ∃ name, e.1 = .text name) :
    ∃ members, (members.map (·.1)).Nodup ∧ entries = entriesOf members := by
  have hmembers : ∃ members, entries = entriesOf members := by
    clear hdistinct
    induction entries with
    | nil => exact ⟨[], rfl⟩
    | cons e rest ih =>
        rw [List.forall_mem_cons] at hkeys
        obtain ⟨key, value⟩ := e
        obtain ⟨⟨name, rfl⟩, hrest⟩ := hkeys
        obtain ⟨members, rfl⟩ := ih hrest
        exact ⟨(name, value) :: members, rfl⟩
  obtain ⟨members, rfl⟩ := hmembers
  exact ⟨members, pairwise_entriesOf_iff.mp hdistinct, rfl⟩

/-! ## Numbers -/

/-- The numbers that are read are not beyond all that has the most digits. -/
theorem IsStandard.abs_lt {v : Value} (h : v.IsStandard) {q : ℚ} (hq : v.count? = some q) :
    |q| < 10 ^ Text.digitLimit := by
  cases h with
  | bool b =>
      obtain rfl := Option.some.inj hq
      have hone : |(b.toNat : ℚ)| ≤ 1 := by cases b <;> norm_num
      exact hone.trans_lt (one_lt_pow₀ (by norm_num) (by decide))
  | @int n h =>
      obtain rfl := Option.some.inj hq
      have hlt : n.natAbs < 10 ^ Text.digitLimit :=
        (Nat.length_toDigits_le_iff (by decide) (by decide)).mp h
      rw [← Int.cast_abs, ← Int.natCast_natAbs, Int.cast_natCast]
      exact_mod_cast hlt
  | @float mantissa exponent hnormal negative =>
      obtain rfl := Option.some.inj hq
      have habs : |Number.Double.finiteValue negative mantissa exponent| =
          mantissa * 2 ^ exponent := by
        have hnonneg : (0 : ℚ) ≤ mantissa * 2 ^ exponent := by positivity
        rw [Number.Double.finiteValue]
        cases negative
        · exact abs_of_nonneg hnonneg
        · exact (abs_neg _).trans (abs_of_nonneg hnonneg)
      have hmantissa : (mantissa : ℚ) < 2 ^ 53 := by exact_mod_cast hnormal.lt_bound
      have hexponent : (2 : ℚ) ^ exponent ≤ 2 ^ (971 : ℤ) :=
        zpow_le_zpow_right₀ (by norm_num) hnormal.le_greatest
      calc |Number.Double.finiteValue negative mantissa exponent|
          = mantissa * 2 ^ exponent := habs
        _ < 2 ^ 53 * 2 ^ exponent := by gcongr
        _ ≤ 2 ^ 53 * 2 ^ (971 : ℤ) := by gcongr
        _ ≤ 2 ^ 1025 := by
          rw [show (971 : ℤ) = (971 : ℕ) from rfl, zpow_natCast, ← pow_add]
          exact pow_le_pow_right₀ (by norm_num) (by norm_num)
        _ ≤ 10 ^ 310 := Number.Double.two_pow_le_ten_pow
        _ ≤ 10 ^ Text.digitLimit := pow_le_pow_right₀ (by norm_num) (by decide)
  | _ => cases hq

theorem IsWritable.isStandard_of_abs_lt {w : Value} (h : w.IsWritable) {q : ℚ}
    (hq : w.count? = some q) (hlt : |q| < 10 ^ Text.digitLimit) : w.IsStandard := by
  cases h with
  | bool b => exact .bool b
  | int n =>
      obtain rfl := Option.some.inj hq
      rw [← Int.cast_abs, ← Int.natCast_natAbs, Int.cast_natCast] at hlt
      have hdigits : n.natAbs < 10 ^ Text.digitLimit := by exact_mod_cast hlt
      exact .int ((Nat.length_toDigits_le_iff (by decide) (by decide)).mpr hdigits)
  | float hnormal negative => exact .float hnormal negative
  | _ => cases hq

/-! ## What equals a document -/

/-- A value that equals a number as it is read is a number, or a truth value, that can be read. -/
theorem IsStandard.of_equality_count? {v w : Value} (h : v.IsStandard) (hw : w.IsWritable) {q : ℚ}
    (hq : v.count? = some q) (hequal : v.equality w = .yes) : w.IsStandard :=
  hw.isStandard_of_abs_lt ((h.isWritable.equality_eq_yes_iff_count? hw hq).mp hequal) (h.abs_lt hq)

/-- What can be written and equals a document as it is read is one itself. -/
theorem IsStandard.of_equality {v w : Value} (h : v.IsStandard) (hw : w.IsWritable)
    (hequal : v.equality w = .yes) : w.IsStandard := by
  induction h generalizing w with
  | null =>
      cases hw with
      | null => exact .null
      | _ => cases hequal
  | bool b => exact (IsStandard.bool b).of_equality_count? hw rfl hequal
  | int h => exact (IsStandard.int h).of_equality_count? hw rfl hequal
  | float h negative => exact (IsStandard.float h negative).of_equality_count? hw rfl hequal
  | text s =>
      cases hw with
      | text t => exact .text t
      | _ => cases hequal
  | list hitems ih =>
      cases hw with
      | list hothers =>
          refine .list fun u hu ↦ ?_
          have hpairs := (IsRegular.equality_list_iff fun v hv ↦ (hitems v hv).isJson.isRegular).mp
            hequal
          obtain ⟨v, hv, hsame⟩ := exists_mem_of_forall₂ hpairs u hu
          exact ih v hv (hothers u hu) hsame
      | _ => cases hequal
  | @dict members hnames hstandard ih =>
      cases hw with
      | @dict entries hkeys hdistinct hvalues =>
          have hentries := (IsWritable.dict hkeys hdistinct hvalues).isRegular.entries.1
          obtain ⟨hmembers, hregular⟩ :=
            (IsStandard.dict hnames hstandard).isJson.isRegular.entries
          obtain ⟨hlength, hpartner⟩ :=
            (IsRegular.equality_dict_iff hmembers hentries hregular).mp hequal
          have hnamed : ∀ e ∈ entries, (∃ name, e.1 = .text name) ∧ e.2.IsStandard := by
            intro e he
            obtain ⟨f, hf, hsame, hvalue⟩ :=
              hmembers.exists_partner hentries hlength hpartner e he
            obtain ⟨m, hm, rfl⟩ := mem_entriesOf hf
            exact ⟨⟨m.1, eq_text_of_identity? hsame.symm⟩, ih m hm (hvalues e he) hvalue⟩
          obtain ⟨others, hothers, rfl⟩ := exists_entriesOf hdistinct fun e he ↦ (hnamed e he).1
          exact .dict hothers fun m hm ↦ (hnamed _ (List.mem_map_of_mem hm)).2
      | _ => cases hequal

end Value

/-! ## What is contained in a document -/

namespace Memory

open Value (entriesOf IsStandard IsWritable)

theorem isStandard_of_containsPlain {haystack needle : Value} (hh : haystack.IsStandard)
    (hn : needle.IsWritable) (h : containsPlain haystack needle = .yes) : needle.IsStandard := by
  have hequality := hh.of_equality hn
  cases hh with
  | list hheld =>
      rw [containsPlain] at h
      split at h
      · exact hequality h
      · rw [membership_eq_any fun v hv ↦ (hheld v hv).isJson.isRegular] at h
        obtain ⟨item, hitem, hsame⟩ := List.mem_map.mp (Verdict.mem_of_any_eq_yes h)
        exact (hheld item hitem).of_equality hn hsame
  | _ => exact hequality h

/-- What can be written and is contained in a document as it is read is one itself. -/
theorem isStandard_of_contains {haystack needle : Value} (hh : haystack.IsStandard)
    (hn : needle.IsWritable) (h : contains haystack needle = .yes) : needle.IsStandard := by
  have hplain := isStandard_of_containsPlain hh hn
  induction hn generalizing haystack with
  | list hitems ih =>
      cases hh with
      | list hheld =>
          have hpartner := (contains_list_iff (fun v hv ↦ (hheld v hv).isJson.isRegular)
            fun v hv ↦ (hitems v hv).isRegular).mp h
          refine .list fun item hitem ↦ ?_
          obtain ⟨v, hv, hfound⟩ := hpartner item hitem
          exact ih item hitem (hheld v hv) hfound
            (isStandard_of_containsPlain (hheld v hv) (hitems item hitem))
      | _ => exact hplain h
  | @dict entries hkeys hdistinct hvalues ih =>
      cases hh with
      | @dict held hnames hheld =>
          have hentries := (IsWritable.dict hkeys hdistinct hvalues).isRegular.entries.1
          have hpartner := (contains_entries_iff (Value.hasDistinctKeys_entriesOf hnames)
            hentries.keys).mp h
          have hfound : ∀ e ∈ entries, (∃ name, e.1 = .text name) ∧ e.2.IsStandard := by
            intro e he
            obtain ⟨f, hf, hsame, hcontains⟩ := hpartner e he
            obtain ⟨m, hm, rfl⟩ := Value.mem_entriesOf hf
            exact ⟨⟨m.1, Value.eq_text_of_identity? hsame.symm⟩, ih e he (hheld m hm) hcontains
              (isStandard_of_containsPlain (hheld m hm) (hvalues e he))⟩
          obtain ⟨members, hmembers, rfl⟩ :=
            Value.exists_entriesOf hdistinct fun e he ↦ (hfound e he).1
          exact .dict hmembers fun m hm ↦ (hfound _ (List.mem_map_of_mem hm)).2
      | _ => exact hplain h
  | _ => exact hplain h

end Memory

/-! ## Operands -/

namespace Json

/-- Documents with one text are one document. -/
theorem eq_of_write?_eq {v w : Value} (hv : v.IsStandard) (hw : w.IsStandard)
    (h : write? v = write? w) : v = w := by
  obtain ⟨json, hjson, hread⟩ := exists_write? hv
  obtain ⟨json', hjson', hread'⟩ := exists_write? hw
  obtain rfl : json = json' := Option.some.inj (hjson.symm.trans (h.trans hjson'))
  exact Option.some.inj (hread.symm.trans hread')

theorem decoded_eq_self {w : Value} (hw : w.IsWritable) (htext : ∀ s, w ≠ .text s) :
    decoded w = w := by
  cases hw with
  | text s => exact absurd rfl (htext s)
  | _ => rfl

end Json

namespace Operator

theorem IsRelation.isStandard_of_evaluate_eq {o : Operator} (ho : o.IsRelation) {v w : Value}
    (hv : v.IsStandard) (hw : w.IsWritable) (hnull : w ≠ .null) {json : String}
    (hjson : Json.decoded (.text json) = v)
    (h : ∀ field, Memory.evaluateRaw o v field = Memory.evaluateRaw o w field) :
    w.IsStandard := by
  have hverdict : ∀ {verdict : Verdict}, .ok true = Fault.ofVerdict verdict → verdict = .yes := by
    intro verdict hok
    cases verdict with
    | yes => rfl
    | _ => cases hok
  have hself : Fault.ofVerdict (Memory.contains v v) = .ok true := by
    rw [Memory.contains_self hv.isWritable]
    rfl
  rcases ho with rfl | rfl | rfl
  · -- The field is the document.
    have hfield : Fault.ofVerdict (Memory.contains (Json.decoded (.text json)) v) =
        Fault.ofVerdict (Memory.contains (Json.decoded (.text json)) w) := h (.text json)
    rw [hjson, hself] at hfield
    exact Memory.isStandard_of_contains hv hw (hverdict hfield)
  · -- The field is the other operand, unless that is a text and so a document anyway.
    by_cases htext : ∃ s, w = .text s
    · obtain ⟨s, rfl⟩ := htext
      exact .text s
    · have hdecoded := Json.decoded_eq_self hw fun s hs ↦ htext ⟨s, hs⟩
      have hfield := h w
      have hpresent : w.isNull = false := by
        cases w <;> first | rfl | exact absurd rfl hnull
      rw [Memory.evaluateRaw, Memory.evaluateRaw, Memory.unlessNull_of_isNull_eq_false hpresent,
        Memory.unlessNull_of_isNull_eq_false hpresent, hdecoded, Memory.contains_self hw] at hfield
      exact Memory.isStandard_of_contains hv hw (hverdict hfield.symm)
  · have hfield : Fault.ofVerdict ((Json.decoded (.text json)).equality v) =
        Fault.ofVerdict ((Json.decoded (.text json)).equality w) := h (.text json)
    rw [hjson, hv.equality_self] at hfield
    exact hv.of_equality hw (hverdict hfield)

end Operator

/-- Two operands with one text bind it both, under the same name in the same template.  When the
first is what the text is read as, they are evaluated alike in memory just when the second one is
so too. -/
theorem Operator.IsRelation.operands_with_one_text {o : Operator} (ho : o.IsRelation)
    {registry : Registry} (hregistered : o ∈ registry) {v w : Value} (hv : v.IsStandard)
    (hnull : v ≠ .null) (hw : w.IsWritable) (htext : Json.write? w = Json.write? v)
    (fieldAlias : Value) (ids : IdSource) :
    ∃ template name json, Json.write? v = some json ∧
      compileFind registry fieldAlias (.dict [(.text o.token, v)]) ids =
        .ok (.raw v template [(name, .text json)] (some o)) ids.advance ∧
      compileFind registry fieldAlias (.dict [(.text o.token, w)]) ids =
        .ok (.raw w template [(name, .text json)] (some o)) ids.advance ∧
      ∀ memory : Memory.Registry, o ∈ memory.origins →
        ((∀ field, Memory.evaluate memory (.raw v template [(name, .text json)] (some o)) field =
          Memory.evaluate memory (.raw w template [(name, .text json)] (some o)) field) ↔
          w.IsStandard) := by
  obtain ⟨json, hwritten, hread⟩ := Json.exists_write? hv
  have hother : w ≠ .null := by
    rintro rfl
    exact hnull (Json.eq_of_write?_eq hv .null htext.symm)
  obtain ⟨relation, hadmitted⟩ := ho.exists_admission hregistered
  have hv' := hadmitted hwritten hnull
  have hw' := hadmitted (htext.trans hwritten) hother
  refine ⟨_, _, json, hwritten, compileFind_eq_ok_iff.mpr ⟨_, hv', rfl, rfl⟩,
    compileFind_eq_ok_iff.mpr ⟨_, hw', rfl, rfl⟩, fun memory hmemory ↦ ?_⟩
  simp only [Memory.evaluate_relation hmemory]
  constructor
  · exact ho.isStandard_of_evaluate_eq hv hw hother (Json.decoded_of_read? hread)
  · intro hstandard field
    rw [Json.eq_of_write?_eq hv hstandard htext.symm]

/-- A document with a digit as a key, and a dictionary with the number instead. -/
theorem Operator.operands_with_one_text_number :
    ∃ (v w : Value) (op op' : FindOperator) (field : Value), v.IsStandard ∧ ¬w.IsStandard ∧
      Json.write? w = Json.write? v ∧
      compileFind .full (.text "e") (.dict [(.text "$jsonContains", v)]) .standard =
        .ok op IdSource.standard.advance ∧
      compileFind .full (.text "e") (.dict [(.text "$jsonContains", w)]) .standard =
        .ok op' IdSource.standard.advance ∧
      Memory.evaluate .full op field ≠ Memory.evaluate .full op' field := by
  have hv : (Value.dict (Value.entriesOf [("1", .list [.null])])).IsStandard := by
    refine .dict (by decide) (List.forall_mem_singleton.mpr ?_)
    exact .list (List.forall_mem_singleton.mpr .null)
  have hw : (Value.dict [(.int 1, .list [.null])]).IsWritable := by
    refine .dict (List.forall_mem_singleton.mpr rfl) (List.pairwise_singleton _ _)
      (List.forall_mem_singleton.mpr ?_)
    exact .list (List.forall_mem_singleton.mpr .null)
  have hnumber : ¬(Value.dict [(.int 1, .list [.null])]).IsStandard := by
    intro h
    obtain ⟨name, hname⟩ := h.isJson.exists_name _ List.mem_cons_self
    cases hname
  have htext : Json.write? (.dict [(.int 1, .list [.null])]) =
      Json.write? (.dict (Value.entriesOf [("1", .list [.null])])) := by decide
  obtain ⟨template, name, json, -, hop, hop', halike⟩ :=
    IsRelation.operands_with_one_text (Or.inl rfl)
      (by decide : Operator.jsonContains ∈ Registry.full) hv nofun hw htext (.text "e") .standard
  obtain ⟨field, hfield⟩ := not_forall.mp (mt (halike .full (by decide)).mp hnumber)
  exact ⟨_, _, _, _, field, hv, hnumber, htext, hop, hop', hfield⟩

/-- A list and a tuple of its items bind one text, and the field that holds the list is equal to the
list alone. -/
theorem tuple_evaluated_apart :
    ∃ (template name json : String) (ids : IdSource),
      compileFind .full (.text "e") (.dict [(.text "$jsonEquals", .list [.int 1, .int 2])])
        .standard = .ok (.raw (.list [.int 1, .int 2]) template [(name, .text json)]
          (some .jsonEquals)) ids ∧
      compileFind .full (.text "e") (.dict [(.text "$jsonEquals", .tuple [.int 1, .int 2])])
        .standard = .ok (.raw (.tuple [.int 1, .int 2]) template [(name, .text json)]
          (some .jsonEquals)) ids ∧
      Memory.evaluate .full (.raw (.list [.int 1, .int 2]) template [(name, .text json)]
        (some .jsonEquals)) (.list [.int 1, .int 2]) = .ok true ∧
      Memory.evaluate .full (.raw (.tuple [.int 1, .int 2]) template [(name, .text json)]
        (some .jsonEquals)) (.list [.int 1, .int 2]) = .ok false :=
  ⟨_, _, "[1, 2]", _, rfl, rfl, rfl, rfl⟩

end Criteria
