import Criteria.Json.Writer
import Criteria.Proofs.ShortestText

/-!
# Documents that read back

A document that is written of texts, whole and finite numbers, truth values, missing values, lists
and objects is read as the value it was written of.  The characters of each value are read as that
value whatever follows, as long as it does not continue a number.
-/

namespace Criteria

/-- The entries of an object with named members. -/
def Value.entriesOf (members : List (String × Value)) : List (Value × Value) :=
  members.map fun m ↦ (.text m.1, m.2)

/-- What a document is read as: whole numbers are short enough to be read, floating point numbers
are finite and in their one form, and the keys of an object are texts, each once. -/
inductive Value.IsStandard : Value → Prop where
  | null : IsStandard .null
  | bool (b : Bool) : IsStandard (.bool b)
  | int {n : Int} (h : (Number.digits n.natAbs).length ≤ Text.digitLimit) : IsStandard (.int n)
  | float {mantissa : Nat} {exponent : Int} (h : Number.Double.IsNormal mantissa exponent)
      (negative : Bool) : IsStandard (.float (.finite negative mantissa exponent))
  | text (s : String) : IsStandard (.text s)
  | list {items : List Value} (h : ∀ v ∈ items, IsStandard v) : IsStandard (.list items)
  | dict {members : List (String × Value)} (hnames : (members.map (·.1)).Nodup)
      (h : ∀ m ∈ members, IsStandard m.2) : IsStandard (.dict (entriesOf members))

namespace Json

/-! ## Texts -/

theorem hexDigit?_hexChar : ∀ d < 16, Text.hexDigit? (Text.hexChar d) = some d := by decide

theorem readUnit?_hexDigits {n : Nat} (h : n < 0x10000) (rest : List Char) :
    readUnit? (Text.hexDigits 4 n ++ rest) = some (n, rest) := by
  have hdigit : ∀ m, Text.hexDigit? (Text.hexChar (m % 16)) = some (m % 16) := fun m ↦
    hexDigit?_hexChar _ (Nat.mod_lt _ (by decide))
  have hvalue : Text.ofDigits 16 [n / 16 / 16 / 16 % 16, n / 16 / 16 % 16, n / 16 % 16, n % 16] =
      n := by
    simp only [Text.ofDigits, List.foldl_cons, List.foldl_nil]
    omega
  simp only [readUnit?, Text.hexDigits, List.nil_append, List.cons_append, List.take_succ_cons,
    List.take_zero, List.drop_succ_cons, List.drop_zero, List.filterMap_cons, hdigit,
    List.filterMap_nil, List.length_cons, List.length_nil, hvalue]
  rfl

theorem charOf?_toNat (c : Char) : Text.Encoding.charOf? c.toNat = some c := by
  have hvalid : c.toNat.isValidChar := c.valid
  rw [Text.Encoding.charOf?, if_pos hvalid, Char.ofNat_toNat]

/-- The escape of a character that one unit is enough for. -/
theorem readCode?_unit {c : Char} (h : c.toNat < 0x10000) (rest : List Char) :
    readCode? (Text.hexDigits 4 c.toNat ++ rest) = some (c, rest) := by
  have hhigh : Text.Encoding.isHigh c.toNat = false := by
    have hvalid : c.toNat.isValidChar := c.valid
    simp only [Text.Encoding.isHigh, Bool.and_eq_false_iff, decide_eq_false_iff_not]
    rw [Nat.isValidChar] at hvalid
    omega
  simp only [readCode?, readUnit?_hexDigits h, hhigh, charOf?_toNat]
  rfl

/-- The escapes of a pair of surrogates. -/
theorem readCode?_pair {c : Char} {high low : Nat} (hhigh : Text.Encoding.isHigh high = true)
    (hlow : Text.Encoding.isLow low = true) (hcode : Text.Encoding.pairCode high low = c.toNat)
    (rest : List Char) :
    readCode? (Text.hexDigits 4 high ++ (unitEscape low ++ rest)) = some (c, rest) := by
  have hhighUnit : high < 0x10000 := by
    simp only [Text.Encoding.isHigh, Bool.and_eq_true, decide_eq_true_eq] at hhigh
    omega
  have hlowUnit : low < 0x10000 := by
    simp only [Text.Encoding.isLow, Bool.and_eq_true, decide_eq_true_eq] at hlow
    omega
  simp only [readCode?, readUnit?_hexDigits hhighUnit, hhigh, if_true, unitEscape,
    List.cons_append, readUnit?_hexDigits hlowUnit, hlow, hcode, charOf?_toNat]
  rfl

/-- A character beyond the units is written as the pair of surrogates that stand for it. -/
theorem surrogates_spec {n : Nat} (hvalid : n.isValidChar) (h : ¬n < 0x10000) :
    Text.Encoding.isHigh (0xd800 + (n - 0x10000) / 0x400) = true ∧
      Text.Encoding.isLow (0xdc00 + (n - 0x10000) % 0x400) = true ∧
      Text.Encoding.pairCode (0xd800 + (n - 0x10000) / 0x400) (0xdc00 + (n - 0x10000) % 0x400) =
        n := by
  have hbound : n < 0x110000 := hvalid.elim (by omega) And.right
  simp only [Text.Encoding.isHigh, Text.Encoding.isLow, Bool.and_eq_true, decide_eq_true_eq]
  unfold Text.Encoding.pairCode
  omega

/-- Every character is read back from what is written for it. -/
theorem readText?_charChars (c : Char) (size : Nat) (rest : List Char) :
    readText? (size + 1) (charChars c ++ rest) =
      (readText? size rest).map fun (cs, rest) ↦ (c :: cs, rest) := by
  have hcode : ∀ escape, readCode? escape = some (c, rest) →
      readText? (size + 1) ('\\' :: 'u' :: escape) =
        (readText? size rest).map fun (cs, rest) ↦ (c :: cs, rest) := by
    intro escape h
    simp only [readText?, h]
  rw [charChars]
  split
  · next hquoted => rcases hquoted with rfl | rfl <;> rfl
  split
  · next hc => subst hc; rfl
  split
  · next hc => subst hc; rfl
  split
  · next hc => subst hc; rfl
  split
  · next hc => subst hc; rfl
  split
  · next hc => subst hc; rfl
  split
  · next hquoted _ _ _ _ _ hplain =>
      have hcond : ¬(c < ' ' ∨ c = '\\') := fun h ↦
        h.elim (Char.not_lt.mpr hplain.1) fun hc ↦ hquoted (Or.inr hc)
      rw [List.singleton_append, readText?, if_neg hcond]
      · exact fun hc ↦ hquoted (Or.inl hc)
      · exact fun _ hc _ ↦ hquoted (Or.inr hc)
      · exact fun _ _ hc _ ↦ hquoted (Or.inr hc)
  split
  · next hunit => exact hcode _ (readCode?_unit hunit rest)
  · next hpair =>
      obtain ⟨hhigh, hlow, hpairCode⟩ := surrogates_spec c.valid hpair
      rw [List.append_assoc]
      exact hcode _ (readCode?_pair hhigh hlow hpairCode rest)

theorem readText?_textChars {size : Nat} {cs : List Char} (h : cs.length < size)
    (rest : List Char) :
    readText? size (cs.flatMap charChars ++ '"' :: rest) = some (cs, rest) := by
  induction cs generalizing size with
  | nil =>
      obtain ⟨n, rfl⟩ := Nat.exists_eq_add_one_of_ne_zero (Nat.ne_of_gt h)
      rfl
  | cons c others ih =>
      obtain ⟨n, rfl⟩ := Nat.exists_eq_add_one_of_ne_zero (Nat.ne_zero_of_lt h)
      rw [List.flatMap_cons, List.append_assoc, readText?_charChars,
        ih (Nat.lt_of_succ_lt_succ h)]
      rfl

/-! ## Values -/

theorem length_le_flatMap_charChars (cs : List Char) :
    cs.length ≤ (cs.flatMap charChars).length := by
  have hchar : ∀ c, 1 ≤ (charChars c).length := by
    intro c
    unfold charChars
    repeat' split
    all_goals simp [unitEscape]
  induction cs with
  | nil => exact Nat.le_refl _
  | cons c rest ih =>
      rw [List.flatMap_cons, List.length_append, List.length_cons]
      have hc := hchar c
      omega

/-- Characters that are read as a value, whatever follows that does not continue a number. -/
structure Reads (part : List Char) (v : Value) : Prop where
  starts : ∃ c cs, part = c :: cs ∧ isSpace c = false ∧ c ≠ ']'
  reads : ∀ {size rest}, part.length < size → Ends rest →
    readValue? size (part ++ rest) = some (v, rest)

theorem readValue?_eq_readScalar? {c : Char} (h : c ≠ '"' ∧ c ≠ '[' ∧ c ≠ '\x7b') (size : Nat)
    (cs : List Char) : readValue? (size + 1) (c :: cs) = readScalar? (c :: cs) := by
  rw [readValue?]
  · exact fun _ hcs ↦ h.1 (List.cons.inj hcs).1
  · exact fun _ hcs ↦ h.2.1 (List.cons.inj hcs).1
  · exact fun _ hcs ↦ h.2.2 (List.cons.inj hcs).1

theorem Reads.of_readScalar? {part : List Char} {v : Value} {c : Char} {cs : List Char}
    (hpart : part = c :: cs) (hc : (c.isAlphanum || c == '-') = true)
    (h : ∀ rest, Ends rest → readScalar? (part ++ rest) = some (v, rest)) : Reads part v := by
  have hne : ∀ d : Char, (d.isAlphanum || d == '-') = false → c ≠ d := by
    rintro d hd rfl
    exact Bool.false_ne_true (hd.symm.trans hc)
  subst hpart
  constructor
  · refine ⟨c, cs, rfl, ?_, hne ']' (by decide)⟩
    simp [isSpace, hne ' ' (by decide), hne '\t' (by decide), hne '\n' (by decide),
      hne '\r' (by decide)]
  · intro size rest hsize hrest
    obtain ⟨n, rfl⟩ := Nat.exists_eq_add_one_of_ne_zero (Nat.ne_zero_of_lt hsize)
    rw [← h rest hrest, List.cons_append]
    exact readValue?_eq_readScalar?
      ⟨hne '"' (by decide), hne '[' (by decide), hne '\x7b' (by decide)⟩ n _

theorem Reads.of_readNumber? {negative : Bool} {d : Char} {ds : List Char} {v : Value}
    (hd : d.isDigit = true)
    (h : ∀ rest, Ends rest → readNumber? negative ((d :: ds) ++ rest) = some (v, rest)) :
    Reads ((if negative then ['-'] else []) ++ d :: ds) v := by
  have hscalar : ∀ rest, Ends rest →
      readScalar? (((if negative then ['-'] else []) ++ d :: ds) ++ rest) = some (v, rest) := by
    intro rest hrest
    rw [List.append_assoc, List.cons_append, readScalar?_eq hd]
    exact h rest hrest
  cases negative with
  | true => exact .of_readScalar? rfl rfl hscalar
  | false => exact .of_readScalar? rfl (by simp [Char.isAlphanum, hd]) hscalar

theorem reads_null : Reads "null".toList .null :=
  .of_readScalar? rfl rfl fun _ _ ↦ rfl

theorem reads_bool (b : Bool) : Reads (boolChars b) (.bool b) := by
  cases b with
  | true => exact .of_readScalar? rfl rfl fun _ _ ↦ rfl
  | false => exact .of_readScalar? rfl rfl fun _ _ ↦ rfl

theorem reads_int {n : Int} (h : (Number.digits n.natAbs).length ≤ Text.digitLimit) :
    Reads (intChars n) (.int n) := by
  have hwhole := Number.isWhole_digits n.natAbs
  obtain ⟨d, ds, hdigits⟩ := List.exists_cons_of_ne_nil hwhole.ne_nil
  have hd : d.isDigit = true := hwhole.isNumeral d (hdigits ▸ List.mem_cons_self)
  have hchars : intChars n = (if decide (n < 0) then ['-'] else []) ++ d :: ds := by
    by_cases hn : n < 0 <;> simp [intChars, hn, hdigits]
  rw [hchars]
  refine .of_readNumber? hd fun rest hrest ↦ ?_
  rw [← hdigits, readNumber?_whole hwhole h hrest, Number.numeralValue_digits]
  simp only [decide_eq_true_eq, Option.some.injEq, Prod.mk.injEq, Value.int.injEq, and_true]
  split <;> omega

theorem reads_float {mantissa : Nat} {exponent : Int}
    (h : Number.Double.IsNormal mantissa exponent) (negative : Bool) :
    Reads (Number.Double.finite negative mantissa exponent).text.toList
      (.float (.finite negative mantissa exponent)) := by
  obtain ⟨numeral, hvalid, hchars, hquantity⟩ := h.exists_numeral
  obtain ⟨d, ds, hd, hds⟩ := hvalid.chars_eq_cons Number.Double.layout
  rw [Number.Double.toList_text_finite, ← hchars, hds]
  refine .of_readNumber? hd fun rest hrest ↦ ?_
  rw [← hds, readNumber?_chars hvalid hrest, hquantity]

theorem reads_text (s : String) : Reads (textChars s.toList) (.text s) := by
  constructor
  · exact ⟨'"', _, rfl, rfl, by decide⟩
  · intro size rest hsize _
    obtain ⟨n, rfl⟩ := Nat.exists_eq_add_one_of_ne_zero (Nat.ne_zero_of_lt hsize)
    have hlength : s.toList.length < n + 1 := by
      have hle := length_le_flatMap_charChars s.toList
      rw [textChars, List.length_cons, List.length_append] at hsize
      omega
    rw [textChars, List.cons_append, List.append_assoc, readValue?, List.singleton_append,
      readText?_textChars hlength]
    exact congrArg (fun t ↦ some (Value.text t, rest)) String.ofList_toList

/-! ## Lists and objects -/

theorem commaSeparated_cons_cons (part second : List Char) (parts : List (List Char)) :
    commaSeparated (part :: second :: parts) =
      part ++ ',' :: ' ' :: commaSeparated (second :: parts) := rfl

theorem commaSeparated_cons (part : List Char) (parts : List (List Char)) :
    ∃ tail, commaSeparated (part :: parts) = part ++ tail := by
  cases parts with
  | nil => exact ⟨[], (List.append_nil part).symm⟩
  | cons second parts => exact ⟨_, commaSeparated_cons_cons part second parts⟩

theorem skipSpace_blank (cs : List Char) : skipSpace (' ' :: cs) = skipSpace cs := rfl

theorem skipSpace_cons {c : Char} (h : isSpace c = false) (cs : List Char) :
    skipSpace (c :: cs) = c :: cs :=
  List.dropWhile_cons_of_neg (by rw [h]; exact Bool.false_ne_true)

theorem Reads.skipSpace_append {part : List Char} {v : Value} (h : Reads part v)
    (rest : List Char) : skipSpace (part ++ rest) = part ++ rest := by
  obtain ⟨c, cs, rfl, hspace, -⟩ := h.starts
  exact skipSpace_cons hspace _

theorem Reads.skipSpace_commaSeparated {part : List Char} {v : Value} (h : Reads part v)
    (parts : List (List Char)) (rest : List Char) :
    skipSpace (commaSeparated (part :: parts) ++ rest) =
      commaSeparated (part :: parts) ++ rest := by
  obtain ⟨tail, htail⟩ := commaSeparated_cons part parts
  rw [htail, List.append_assoc]
  exact h.skipSpace_append _

theorem ends_cons {c : Char} (h : c.isDigit = false ∧ c ≠ '.' ∧ c ≠ 'e' ∧ c ≠ 'E')
    (rest : List Char) : Ends (c :: rest) := by
  rintro d ⟨⟩
  exact h

theorem readItems?_last {part : List Char} {v : Value} (h : Reads part v) {size : Nat}
    (hsize : part.length < size) (rest : List Char) :
    readItems? (size + 1) (part ++ ']' :: rest) = some ([v], rest) := by
  have hitem := h.reads hsize (ends_cons (c := ']') (by decide) rest)
  simp only [readItems?, hitem, skipSpace_cons (c := ']') rfl]

theorem readItems?_more {part : List Char} {v : Value} (h : Reads part v) {size : Nat}
    (hsize : part.length < size) {more rest : List Char} {items : List Value}
    (hmore : readItems? size (skipSpace more) = some (items, rest)) :
    readItems? (size + 1) (part ++ ',' :: more) = some (v :: items, rest) := by
  have hitem := h.reads hsize (ends_cons (c := ',') (by decide) more)
  simp only [readItems?, hitem, skipSpace_cons (c := ',') rfl, hmore, Option.map_some]

/-- The items of a list are read one after the other. -/
theorem readItems?_commaSeparated {parts : List (List Char)} {items : List Value}
    (h : List.Forall₂ Reads parts items) (hne : items ≠ []) {size : Nat}
    (hsize : (commaSeparated parts).length + 1 < size) (rest : List Char) :
    readItems? size (commaSeparated parts ++ ']' :: rest) = some (items, rest) := by
  -- Every item takes one of the size and its value needs no more than it is long.
  induction h generalizing size with
  | nil => exact absurd rfl hne
  | @cons part v parts items hpart hparts ih =>
      obtain ⟨n, rfl⟩ := Nat.exists_eq_add_one_of_ne_zero (Nat.ne_zero_of_lt hsize)
      cases hparts with
      | nil =>
          rw [commaSeparated] at hsize ⊢
          exact readItems?_last hpart (by omega) rest
      | @cons second w parts items hsecond hparts =>
          rw [commaSeparated_cons_cons, List.length_append, List.length_cons,
            List.length_cons] at hsize
          have hrest : readItems? n (commaSeparated (second :: parts) ++ ']' :: rest) =
              some (w :: items, rest) := ih (List.cons_ne_nil _ _) (by omega)
          rw [← hsecond.skipSpace_commaSeparated parts, ← skipSpace_blank] at hrest
          rw [commaSeparated_cons_cons, List.append_assoc, List.cons_append, List.cons_append]
          exact readItems?_more hpart (by omega) hrest

/-- The characters of a member of an object, whose value is read. -/
inductive ReadsMember : List Char → String × Value → Prop where
  | mk {part : List Char} {v : Value} (h : Reads part v) (name : String) :
      ReadsMember (textChars name.toList ++ ':' :: ' ' :: part) (name, v)

theorem ReadsMember.skipSpace_commaSeparated {part : List Char} {member : String × Value}
    (h : ReadsMember part member) (parts : List (List Char)) (rest : List Char) :
    skipSpace (commaSeparated (part :: parts) ++ rest) =
      commaSeparated (part :: parts) ++ rest := by
  obtain ⟨tail, htail⟩ := commaSeparated_cons part parts
  obtain ⟨hvalue, name⟩ := h
  rw [htail]
  rfl

theorem lengths_of_member {name part : List Char} {size : Nat}
    (h : (textChars name ++ ':' :: ' ' :: part).length < size + 1) :
    name.length < size + 1 ∧ part.length < size := by
  have hle := length_le_flatMap_charChars name
  simp only [textChars, List.length_append, List.length_cons, List.length_nil] at h
  omega

theorem readMembers?_last {part : List Char} {v : Value} (h : Reads part v) (name : String)
    {size : Nat} (hsize : (textChars name.toList ++ ':' :: ' ' :: part).length < size + 1)
    (rest : List Char) :
    readMembers? (size + 1) ((textChars name.toList ++ ':' :: ' ' :: part) ++ '\x7d' :: rest) =
      some ([(.text name, v)], rest) := by
  obtain ⟨hname, hpart⟩ := lengths_of_member hsize
  have hvalue := h.reads hpart (ends_cons (c := '\x7d') (by decide) rest)
  simp only [textChars, List.cons_append, List.append_assoc, List.nil_append, readMembers?,
    readText?_textChars hname, skipSpace_cons (c := ':') rfl, skipSpace_blank, h.skipSpace_append,
    hvalue, skipSpace_cons (c := '\x7d') rfl, String.ofList_toList]

theorem readMembers?_more {part : List Char} {v : Value} (h : Reads part v) (name : String)
    {size : Nat} (hsize : (textChars name.toList ++ ':' :: ' ' :: part).length < size + 1)
    {more rest : List Char} {entries : List (Value × Value)}
    (hmore : readMembers? size (skipSpace more) = some (entries, rest)) :
    readMembers? (size + 1) ((textChars name.toList ++ ':' :: ' ' :: part) ++ ',' :: more) =
      some ((.text name, v) :: entries, rest) := by
  obtain ⟨hname, hpart⟩ := lengths_of_member hsize
  have hvalue := h.reads hpart (ends_cons (c := ',') (by decide) more)
  simp only [textChars, List.cons_append, List.append_assoc, List.nil_append, readMembers?,
    readText?_textChars hname, skipSpace_cons (c := ':') rfl, skipSpace_blank, h.skipSpace_append,
    hvalue, skipSpace_cons (c := ',') rfl, hmore, String.ofList_toList, Option.map_some]

/-- The members of an object are read one after the other. -/
theorem readMembers?_commaSeparated {parts : List (List Char)} {members : List (String × Value)}
    (h : List.Forall₂ ReadsMember parts members) (hne : members ≠ []) {size : Nat}
    (hsize : (commaSeparated parts).length + 1 < size) (rest : List Char) :
    readMembers? size (commaSeparated parts ++ '\x7d' :: rest) =
      some (Value.entriesOf members, rest) := by
  induction h generalizing size with
  | nil => exact absurd rfl hne
  | @cons part member parts members hmember hparts ih =>
      obtain ⟨n, rfl⟩ := Nat.exists_eq_add_one_of_ne_zero (Nat.ne_zero_of_lt hsize)
      obtain ⟨hpart, name⟩ := hmember
      cases hparts with
      | nil =>
          rw [commaSeparated] at hsize ⊢
          exact readMembers?_last hpart name (by omega) rest
      | @cons second other parts members hsecond hparts =>
          rw [commaSeparated_cons_cons, List.length_append, List.length_cons,
            List.length_cons] at hsize
          have hrest : readMembers? n (commaSeparated (second :: parts) ++ '\x7d' :: rest) =
              some (Value.entriesOf (other :: members), rest) :=
            ih (List.cons_ne_nil _ _) (by omega)
          rw [← hsecond.skipSpace_commaSeparated parts, ← skipSpace_blank] at hrest
          rw [commaSeparated_cons_cons, List.append_assoc, List.cons_append, List.cons_append]
          exact readMembers?_more hpart name (by omega) hrest

theorem Reads.list {parts : List (List Char)} {items : List Value}
    (h : List.Forall₂ Reads parts items) :
    Reads ('[' :: (commaSeparated parts ++ [']'])) (.list items) := by
  constructor
  · exact ⟨'[', _, rfl, rfl, by decide⟩
  · intro size rest hsize _
    obtain ⟨n, rfl⟩ := Nat.exists_eq_add_one_of_ne_zero (Nat.ne_zero_of_lt hsize)
    rw [List.length_cons, List.length_append, List.length_singleton] at hsize
    rw [List.cons_append, List.append_assoc, List.singleton_append]
    cases h with
    | nil => rfl
    | @cons part v parts items hpart hparts =>
        have hitems : readItems? n (commaSeparated (part :: parts) ++ ']' :: rest) =
            some (v :: items, rest) :=
          readItems?_commaSeparated (.cons hpart hparts) (List.cons_ne_nil _ _) (by omega) rest
        have hskip : skipSpace (commaSeparated (part :: parts) ++ ']' :: rest) =
            commaSeparated (part :: parts) ++ ']' :: rest := hpart.skipSpace_commaSeparated parts _
        rw [readValue?, hskip]
        split
        · next heq =>
            obtain ⟨tail, htail⟩ := commaSeparated_cons part parts
            obtain ⟨c, cs, hc, -, hbracket⟩ := hpart.starts
            rw [htail, hc] at heq
            exact absurd (List.cons.inj heq).1 hbracket
        · rw [hitems]
          rfl

theorem insertEntry_eq_append {name : String} (v : Value) {members : List (String × Value)}
    (h : name ∉ members.map (·.1)) :
    Value.insertEntry (.text name) v (Value.entriesOf members) =
      Value.entriesOf (members ++ [(name, v)]) := by
  induction members with
  | nil => rfl
  | cons m rest ih =>
      rw [List.map_cons, List.mem_cons, not_or] at h
      have hne : ¬(Value.text name).equal (.text m.1) = true := by
        rw [Value.equal, Value.matching_eq_equality (by simp [Value.quantity?])]
        simpa [Value.equality] using h.1
      have hrest := ih h.2
      simp only [Value.entriesOf] at hrest
      simp only [Value.entriesOf, List.map_cons, List.cons_append, Value.insertEntry, if_neg hne,
        hrest]

/-- With names that are all different an object keeps its members. -/
theorem ofEntries_entriesOf {members : List (String × Value)} (h : (members.map (·.1)).Nodup) :
    Value.ofEntries (Value.entriesOf members) = .dict (Value.entriesOf members) := by
  have hfold : ∀ done : List (String × Value), ((done ++ members).map (·.1)).Nodup →
      (Value.entriesOf members).foldl (fun held e ↦ Value.insertEntry e.1 e.2 held)
        (Value.entriesOf done) = Value.entriesOf (done ++ members) := by
    -- The names of the members that are already there stay different from those to come.
    clear h
    induction members with
    | nil => exact fun done _ ↦ by rw [List.append_nil]; rfl
    | cons m rest ih =>
        intro done hdone
        have hnew : m.1 ∉ done.map (·.1) := by
          rw [List.map_append, List.map_cons, List.nodup_append] at hdone
          exact fun hm ↦ hdone.2.2 _ hm _ List.mem_cons_self rfl
        rw [List.append_cons] at hdone
        have hrest := ih (done ++ [m]) hdone
        rw [← insertEntry_eq_append m.2 hnew, ← List.append_cons] at hrest
        exact hrest
  exact congrArg Value.dict (hfold [] h)

theorem Reads.dict {parts : List (List Char)} {members : List (String × Value)}
    (h : List.Forall₂ ReadsMember parts members) (hnames : (members.map (·.1)).Nodup) :
    Reads ('\x7b' :: (commaSeparated parts ++ ['\x7d'])) (.dict (Value.entriesOf members)) := by
  constructor
  · exact ⟨'\x7b', _, rfl, rfl, by decide⟩
  · intro size rest hsize _
    obtain ⟨n, rfl⟩ := Nat.exists_eq_add_one_of_ne_zero (Nat.ne_zero_of_lt hsize)
    rw [List.length_cons, List.length_append, List.length_singleton] at hsize
    rw [List.cons_append, List.append_assoc, List.singleton_append]
    cases h with
    | nil => rfl
    | @cons part member parts members hpart hparts =>
        have hmembers : readMembers? n (commaSeparated (part :: parts) ++ '\x7d' :: rest) =
            some (Value.entriesOf (member :: members), rest) :=
          readMembers?_commaSeparated (.cons hpart hparts) (List.cons_ne_nil _ _) (by omega) rest
        have hskip : skipSpace (commaSeparated (part :: parts) ++ '\x7d' :: rest) =
            commaSeparated (part :: parts) ++ '\x7d' :: rest :=
          hpart.skipSpace_commaSeparated parts _
        rw [readValue?, hskip]
        split
        · next heq =>
            obtain ⟨tail, htail⟩ := commaSeparated_cons part parts
            obtain ⟨hvalue, name⟩ := hpart
            rw [htail] at heq
            exact absurd (List.cons.inj heq).1 (by decide)
        · rw [hmembers, ← ofEntries_entriesOf hnames]
          rfl

theorem exists_itemChars? {items : List Value}
    (h : ∀ v ∈ items, ∃ part, chars? v = some part ∧ Reads part v) :
    ∃ parts, itemChars? items = some parts ∧ List.Forall₂ Reads parts items := by
  induction items with
  | nil => exact ⟨[], rfl, .nil⟩
  | cons v rest ih =>
      obtain ⟨part, hpart, hreads⟩ := h v List.mem_cons_self
      obtain ⟨parts, hparts, hall⟩ := ih fun w hw ↦ h w (List.mem_cons_of_mem v hw)
      exact ⟨part :: parts, by rw [itemChars?, hpart, hparts], .cons hreads hall⟩

theorem exists_entryChars? {members : List (String × Value)}
    (h : ∀ m ∈ members, ∃ part, chars? m.2 = some part ∧ Reads part m.2) :
    ∃ parts, entryChars? (Value.entriesOf members) = some parts ∧
      List.Forall₂ ReadsMember parts members := by
  induction members with
  | nil => exact ⟨[], rfl, .nil⟩
  | cons m rest ih =>
      obtain ⟨part, hpart, hreads⟩ := h m List.mem_cons_self
      obtain ⟨parts, hparts, hall⟩ := ih fun w hw ↦ h w (List.mem_cons_of_mem m hw)
      refine ⟨_ :: parts, ?_, .cons (.mk hreads m.1) hall⟩
      rw [Value.entriesOf] at hparts
      simp only [Value.entriesOf, List.map_cons, entryChars?, keyChars?, hpart, hparts]

/-- What is written for a standard value is read as the value. -/
theorem exists_reads {v : Value} (h : v.IsStandard) :
    ∃ part, chars? v = some part ∧ Reads part v := by
  induction h with
  | null => exact ⟨_, rfl, reads_null⟩
  | bool b => exact ⟨_, rfl, reads_bool b⟩
  | int h => exact ⟨_, if_pos (Number.hasNumeral_iff.mpr h), reads_int h⟩
  | float h negative => exact ⟨_, rfl, reads_float h negative⟩
  | text s => exact ⟨_, rfl, reads_text s⟩
  | list _ ih =>
      obtain ⟨parts, hparts, hall⟩ := exists_itemChars? ih
      exact ⟨_, by rw [chars?, hparts, Option.map_some], .list hall⟩
  | dict hnames _ ih =>
      obtain ⟨parts, hparts, hall⟩ := exists_entryChars? ih
      exact ⟨_, by rw [chars?, hparts, Option.map_some], .dict hall hnames⟩

theorem read?_of_reads {part : List Char} {v : Value} (h : Reads part v) :
    read? part = some v := by
  have hskip := h.skipSpace_append []
  have hvalue : readValue? (2 * part.length + 2) (part ++ []) = some (v, []) :=
    h.reads (by omega) nofun
  rw [List.append_nil] at hskip hvalue
  rw [read?, hskip, hvalue]
  rfl

/-- A standard value is written as a text that is read as the value. -/
theorem exists_write? {v : Value} (h : v.IsStandard) :
    ∃ json, write? v = some json ∧ read? json.toList = some v := by
  obtain ⟨part, hchars, hreads⟩ := exists_reads h
  refine ⟨String.ofList part, by rw [write?, hchars, Option.map_some], ?_⟩
  rw [String.toList_ofList, read?_of_reads hreads]

theorem decoded_of_read? {json : String} {v : Value} (h : read? json.toList = some v) :
    decoded (.text json) = v := by
  rw [decoded, h, Option.getD_some]

end Json

end Criteria
