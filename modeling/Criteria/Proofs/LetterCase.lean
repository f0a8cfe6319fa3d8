import Criteria.Proofs.Substrings

/-!
# Patterns and the case of letters

When case is ignored, a character stands at least for itself, and the two cases of a letter of ASCII
stand for the same characters.  No wildcard and no line break is such a letter.  So a pattern that
matches exactly also matches when case is ignored, and then nothing depends on the case in which the
letters of ASCII are written in the pattern or in the text.
-/

namespace Criteria

namespace Text

/-- Two texts that differ at most in the case of letters of ASCII. -/
def CaseVariants (s t : String) : Prop := s.toList.map Char.toLower = t.toList.map Char.toLower

instance (s t : String) : Decidable (CaseVariants s t) :=
  inferInstanceAs (Decidable (s.toList.map Char.toLower = t.toList.map Char.toLower))

theorem CaseVariants.append {s s' t t' : String} (hs : CaseVariants s s')
    (ht : CaseVariants t t') : CaseVariants (s ++ t) (s' ++ t') := by
  simp only [CaseVariants, String.toList_append, List.map_append] at hs ht ⊢
  rw [hs, ht]

/-- A capital of ASCII stands 32 places before its lower-case form, and every other character is
its own one. -/
theorem toLower_cases (c : Char) :
    ('A'.toNat ≤ c.toNat ∧ c.toNat ≤ 'Z'.toNat ∧ c.toLower.toNat = c.toNat + 32) ∨
      c.toLower = c := by
  by_cases h : c.val ≥ 'A'.val ∧ c.val ≤ 'Z'.val
  · have hlower : c.toLower.toNat = (c.val + 32).toNat := congrArg Char.toNat (dif_pos h)
    rw [ge_iff_le, UInt32.le_iff_toNat_le, UInt32.le_iff_toNat_le] at h
    have hlast : 'Z'.val.toNat = 90 := rfl
    have hlt : c.val.toNat + 32 < 2 ^ 32 := by omega
    exact Or.inl ⟨h.1, h.2, hlower.trans ((UInt32.toNat_add _ _).trans (Nat.mod_eq_of_lt hlt))⟩
  · exact Or.inr (dif_neg h)

/-- A character before the letters of ASCII, or between the capitals and the others, is the
lower-case form of itself alone. -/
theorem toLower_eq_iff {c d : Char}
    (hd : d.toNat < 'A'.toNat ∨ 'Z'.toNat < d.toNat ∧ d.toNat < 'a'.toNat) :
    c.toLower = d ↔ c = d := by
  have hA : 'A'.toNat = 65 := rfl
  have hZ : 'Z'.toNat = 90 := rfl
  have ha : 'a'.toNat = 97 := rfl
  rcases toLower_cases c with ⟨hfirst, hlast, h⟩ | h
  · constructor
    · rintro rfl
      omega
    · rintro rfl
      omega
  · rw [h]

theorem lowerCode_capital {n : Nat} (hfirst : 'A'.toNat ≤ n) (hlast : n ≤ 'Z'.toNat) :
    lowerCode (n + 32) = lowerCode n := by
  have hall : ∀ n ∈ List.range' 'A'.toNat 26, lowerCode (n + 32) = lowerCode n := by
    decide +kernel
  exact hall n (List.mem_range'_1.mpr ⟨hfirst, Nat.lt_succ_of_le hlast⟩)

theorem lowerCode_toLower (c : Char) : lowerCode c.toLower.toNat = lowerCode c.toNat := by
  rcases toLower_cases c with ⟨hfirst, hlast, h⟩ | h
  · rw [h, lowerCode_capital hfirst hlast]
  · rw [h]

theorem sameLetter_toLower (c d : Char) : sameLetter c.toLower d.toLower = sameLetter c d := by
  rw [sameLetter, sameLetter, sameLetterCode, sameLetterCode, lowerCode_toLower,
    lowerCode_toLower]

theorem mem_spellingsOf (n : Nat) : n ∈ spellingsOf n := by
  rw [spellingsOf]
  cases h : spellings.find? (·.contains n) with
  | none => exact List.mem_singleton_self n
  | some forms =>
      have hcontains := List.find?_some h
      exact List.contains_iff_mem.mp hcontains

theorem sameLetter_refl (c : Char) : sameLetter c c = true :=
  List.contains_iff_mem.mpr (mem_spellingsOf _)

end Text

namespace Like

variable {same same' : Char → Char → Prop}

theorem Covers.imp {pattern text : List Char} (hsame : ∀ c d, same c d → same' c d)
    (h : Covers same pattern text) : Covers same' pattern text := by
  induction h with
  | nil => exact .nil
  | run passed h ih => exact .run passed ih
  | one c h ih => exact .one c ih
  | char hrun hone hcd h ih => exact .char hrun hone (hsame _ _ hcd) ih

/-- What a pattern covers it also covers when its characters stand for more. -/
theorem CoversBody.imp {pattern text : List Char} (hsame : ∀ c d, same c d → same' c d) :
    CoversBody same pattern text → CoversBody same' pattern text
  | ⟨body, rest, htext, h, hrest⟩ => ⟨body, rest, htext, h.imp hsame, hrest⟩

/-- Lower-case letters may be put for the capitals of ASCII, when this does not change which
characters are the same. -/
theorem coversBody_map_toLower_iff (hsame : ∀ c d, same c.toLower d.toLower ↔ same c d)
    {pattern text : List Char} :
    CoversBody same (pattern.map Char.toLower) (text.map Char.toLower) ↔
      CoversBody same pattern text := by
  induction pattern generalizing text with
  | nil =>
      have hbreak (d : Char) : d.toLower = '\n' ↔ d = '\n' := Text.toLower_eq_iff (by decide)
      have htext : text.map Char.toLower = ['\n'] ↔ text = ['\n'] := by
        simp [List.map_eq_singleton_iff, hbreak]
      rw [List.map_nil, coversBody_nil_iff, coversBody_nil_iff, List.map_eq_nil_iff, htext]
  | cons c pattern ih =>
      rw [List.map_cons]
      have hrun : c.toLower = '%' ↔ c = '%' := Text.toLower_eq_iff (by decide)
      have hone : c.toLower = '_' ↔ c = '_' := Text.toLower_eq_iff (by decide)
      by_cases h : c = '%'
      · rw [hrun.mpr h, h, coversBody_run_iff, coversBody_run_iff]
        simp only [List.suffix_map_iff]
        constructor
        · rintro ⟨_, ⟨rest, hrest, rfl⟩, hcovers⟩
          exact ⟨rest, hrest, ih.mp hcovers⟩
        · rintro ⟨rest, hrest, hcovers⟩
          exact ⟨_, ⟨rest, hrest, rfl⟩, ih.mpr hcovers⟩
      · rw [coversBody_cons_iff (mt hrun.mp h), coversBody_cons_iff h]
        cases text with
        | nil => simp
        | cons d rest =>
            constructor
            · rintro ⟨_, _, ⟨⟩, hd, hcovers⟩
              exact ⟨d, rest, rfl, hd.imp hone.mp (hsame c d).mp, ih.mp hcovers⟩
            · rintro ⟨_, _, ⟨⟩, hd, hcovers⟩
              exact ⟨_, _, rfl, hd.imp hone.mpr (hsame c d).mpr, ih.mpr hcovers⟩

/-- A pattern that matches exactly matches when case is ignored as well. -/
theorem matchesBy_alike_of_exact {pattern text : List Char}
    (h : matchesBy (alike false) pattern text = true) :
    matchesBy (alike true) pattern text = true := by
  have hsame : ∀ c d, alike false c d = true → alike true c d = true := by
    intro c d hcd
    obtain rfl : c = d := beq_iff_eq.mp hcd
    exact Text.sameLetter_refl c
  rw [matchesBy_iff fun _ _ ↦ Iff.rfl] at h ⊢
  exact h.imp hsame

/-- Whether a pattern matches when case is ignored does not depend on the case of the letters of
ASCII, neither in the pattern nor in the text. -/
theorem matchesBy_alike_eq {pattern pattern' text text' : String}
    (hpattern : Text.CaseVariants pattern pattern') (htext : Text.CaseVariants text text') :
    matchesBy (alike true) pattern.toList text.toList =
      matchesBy (alike true) pattern'.toList text'.toList := by
  have hsame : ∀ c d, alike true c.toLower d.toLower = true ↔ alike true c d = true :=
    fun c d ↦ by rw [alike, if_pos rfl, Text.sameLetter_toLower]
  rw [Bool.eq_iff_iff, matchesBy_iff fun _ _ ↦ Iff.rfl, matchesBy_iff fun _ _ ↦ Iff.rfl,
    ← coversBody_map_toLower_iff hsame, hpattern, htext, coversBody_map_toLower_iff hsame]

end Like

namespace Memory

variable {pattern pattern' field field' : Value}

theorem liked_ignoring_case (h : liked false pattern field = .ok true) :
    liked true pattern field = .ok true := by
  cases hpattern : pattern.text? with
  | none => cases (liked_of_text?_eq_none (Or.inl hpattern)).symm.trans h
  | some word =>
      cases htext : field.text? with
      | none => cases (liked_of_text?_eq_none (Or.inr htext)).symm.trans h
      | some text =>
          rw [liked_of_text? hpattern htext] at h ⊢
          rw [Like.matchesBy_alike_of_exact (Except.ok.inj h)]

/-- What is found without regard to case depends on the texts only up to the case of the letters of
ASCII. -/
theorem liked_eq_of_caseVariants
    (hpattern : Option.Rel Text.CaseVariants pattern.text? pattern'.text?)
    (hfield : Option.Rel Text.CaseVariants field.text? field'.text?) :
    liked true pattern field = liked true pattern' field' := by
  generalize hword : pattern.text? = word, hword' : pattern'.text? = word' at hpattern
  generalize htext : field.text? = text, htext' : field'.text? = text' at hfield
  cases hpattern with
  | none => rw [liked_of_text?_eq_none (Or.inl hword), liked_of_text?_eq_none (Or.inl hword')]
  | some hpattern =>
      cases hfield with
      | none => rw [liked_of_text?_eq_none (Or.inr htext), liked_of_text?_eq_none (Or.inr htext')]
      | some hfield =>
          rw [liked_of_text? hword htext, liked_of_text? hword' htext',
            Like.matchesBy_alike_eq hpattern hfield]

/-- An operator that looks for a text without regard to case gives one answer for all ways of
writing the letters of ASCII. -/
theorem exists_compileFind_caseVariants {o : Operator} {placement : Placement} {negated : Bool}
    (hc : ∀ word, o.criterion? (.text word) = some (.pattern placement true negated word))
    {word word' : String} (hword : Text.CaseVariants word word') (hfield : field.isNull = false)
    (hfield' : field'.isNull = false)
    (hvariants : Option.Rel Text.CaseVariants field.text? field'.text?)
    (fieldAlias fieldAlias' : Value) (ids ids' : IdSource) :
    ∃ op op' left left',
      compileFind .full fieldAlias (o.condition (.text word)) ids = .ok op left ∧
      compileFind .full fieldAlias' (o.condition (.text word')) ids' = .ok op' left' ∧
      evaluate .full op field = evaluate .full op' field' ∧
      (field.hasText = true → ∃ found, evaluate .full op field = .ok found) := by
  have hpattern : Text.CaseVariants (placement.pattern word) (placement.pattern word') := by
    cases placement with
    | anywhere => exact .append (.append rfl hword) rfl
    | atStart => exact .append hword rfl
    | atEnd => exact .append rfl hword
  have htexts : Option.Rel Text.CaseVariants (Value.text (placement.pattern word)).text?
      (Value.text (placement.pattern word')).text? := .some hpattern
  obtain ⟨op, left, hop, hevaluate⟩ := exists_compileFind_pattern (hc word) fieldAlias ids
  obtain ⟨op', left', hop', hevaluate'⟩ := exists_compileFind_pattern (hc word') fieldAlias' ids'
  refine ⟨op, op', left, left', hop, hop', ?_, fun htext ↦ ?_⟩
  · rw [hevaluate field hfield, hevaluate' field' hfield',
      liked_eq_of_caseVariants htexts hvariants]
  · have htext : field.text? = some field.toText := if_pos htext
    exact ⟨_, by rw [hevaluate field hfield, liked_of_text? rfl htext, Except.map]⟩

/-- A pattern that finds a value exactly finds it also when case is ignored.  What is found then
stays the same in every way of writing the letters of ASCII, and so does what the operators say that
look for a text without regard to case. -/
theorem ilike_extends_like_and_ignores_case :
    (∀ pattern field : Value, field.isNull = false →
      (evaluate .full (.like pattern) field = .ok true →
        evaluate .full (.ilike pattern) field = .ok true) ∧
      ∀ word text, pattern.text? = some word → field.text? = some text → ∃ exact loose,
        evaluate .full (.like pattern) field = .ok exact ∧
        evaluate .full (.ilike pattern) field = .ok loose ∧
        Like.Finds [.dotAll] word text exact ∧
        Like.Finds [.ignoreCase, .dotAll] word text loose) ∧
    ∀ field field' : Value, field.isNull = false → field'.isNull = false →
      Option.Rel Text.CaseVariants field.text? field'.text? →
      (∀ pattern pattern' : Value, Option.Rel Text.CaseVariants pattern.text? pattern'.text? →
        evaluate .full (.ilike pattern) field = evaluate .full (.ilike pattern') field') ∧
      ∀ o ∈ [Operator.iContains, .notIContains], ∀ word word', Text.CaseVariants word word' →
        ∀ (fieldAlias fieldAlias' : Value) (ids ids' : IdSource), ∃ op op' left left',
          compileFind .full fieldAlias (o.condition (.text word)) ids = .ok op left ∧
          compileFind .full fieldAlias' (o.condition (.text word')) ids' = .ok op' left' ∧
          evaluate .full op field = evaluate .full op' field' ∧
          (field.hasText = true → ∃ found, evaluate .full op field = .ok found) := by
  constructor
  · intro pattern field hfield
    rw [evaluate_like hfield, evaluate_ilike hfield]
    refine ⟨liked_ignoring_case, fun word text hword htext ↦ ?_⟩
    exact ⟨_, _, liked_of_text? hword htext, liked_of_text? hword htext,
      Like.finds_matchesBy false _ _, Like.finds_matchesBy true _ _⟩
  · intro field field' hfield hfield' hvariants
    constructor
    · intro pattern pattern' hpattern
      rw [evaluate_ilike hfield, evaluate_ilike hfield',
        liked_eq_of_caseVariants hpattern hvariants]
    · intro o ho word word' hword
      obtain ⟨negated, hc⟩ : ∃ negated, ∀ word,
          o.criterion? (.text word) = some (.pattern .anywhere true negated word) := by
        simp only [List.mem_cons, List.not_mem_nil, or_false] at ho
        rcases ho with rfl | rfl
        · exact ⟨false, fun _ ↦ rfl⟩
        · exact ⟨true, fun _ ↦ rfl⟩
      exact exists_compileFind_caseVariants hc hword hfield hfield' hvariants

/-- A name in two ways of writing, and a pattern with wildcards in two ways. -/
theorem ilike_extends_like_and_ignores_case_name :
    ∃ (field field' : Value) (op op' : FindOperator) (left left' : IdSource),
      field = .text "JOHN" ∧ field' = .text "John" ∧
      evaluate .full (.like (.text "J_H%")) field = .ok true ∧
      evaluate .full (.ilike (.text "J_H%")) field = .ok true ∧
      evaluate .full (.ilike (.text "j_h%")) field' = .ok true ∧
      compileFind .full (.text "name") (Operator.notIContains.condition (.text "oH")) .standard =
        .ok op left ∧
      compileFind .full (.text "name") (Operator.notIContains.condition (.text "Oh")) .standard =
        .ok op' left' ∧
      evaluate .full op field = .ok false ∧ evaluate .full op' field' = .ok false := by
  obtain ⟨hextends, hignores⟩ := ilike_extends_like_and_ignores_case
  have htrue : evaluate .full (.like (.text "J_H%")) (.text "JOHN") = .ok true := rfl
  have hloose := (hextends (.text "J_H%") (.text "JOHN") rfl).1 htrue
  have hnames : Text.CaseVariants "JOHN" "John" := by decide
  have hpatterns : Text.CaseVariants "J_H%" "j_h%" := by decide
  obtain ⟨hpattern, hoperator⟩ := hignores (.text "JOHN") (.text "John") rfl rfl (.some hnames)
  have hsame := hpattern (.text "J_H%") (.text "j_h%") (.some hpatterns)
  obtain ⟨op, op', left, left', hop, hop', hequal, -⟩ :=
    hoperator .notIContains (by simp) "oH" "Oh" (by decide) (.text "name") (.text "name")
      .standard .standard
  obtain ⟨op₀, left₀, hop₀, hfalse⟩ : ∃ op left, compileFind .full (.text "name")
      (Operator.notIContains.condition (.text "oH")) .standard = .ok op left ∧
      evaluate .full op (.text "JOHN") = .ok false := ⟨_, _, rfl, rfl⟩
  obtain ⟨rfl, rfl⟩ : op = op₀ ∧ left = left₀ := by simpa [hop] using hop₀
  exact ⟨_, _, op, op', left, left', rfl, rfl, htrue, hloose, hsame.symm.trans hloose, hop, hop',
    hfalse, hequal.symm.trans hfalse⟩

end Memory

end Criteria
