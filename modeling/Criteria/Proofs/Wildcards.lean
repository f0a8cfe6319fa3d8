import Criteria.Like

/-!
# What patterns cover

A pattern is read as a query reads it: `%` stands for any characters, line breaks among them, `_`
for exactly one, and every other character for itself alone.  A text matches a pattern that covers
it, and also one that covers all of it but a line break at its end.
-/

namespace Criteria.Like

/-- A pattern covers a whole text, when a character stands for those that are the same. -/
inductive Covers (same : Char → Char → Prop) : List Char → List Char → Prop where
  | nil : Covers same [] []
  | run {pattern text : List Char} (passed : List Char) (h : Covers same pattern text) :
      Covers same ('%' :: pattern) (passed ++ text)
  | one {pattern text : List Char} (c : Char) (h : Covers same pattern text) :
      Covers same ('_' :: pattern) (c :: text)
  | char {pattern text : List Char} {c d : Char} (hrun : c ≠ '%') (hone : c ≠ '_')
      (hsame : same c d) (h : Covers same pattern text) : Covers same (c :: pattern) (d :: text)

theorem mem_suffixes_iff {rest text : List Char} : rest ∈ suffixes text ↔ rest <:+ text := by
  induction text with
  | nil => rw [suffixes, List.mem_singleton, List.suffix_nil]
  | cons c text ih => rw [suffixes, List.mem_cons, ih, List.suffix_cons_iff]

variable {same : Char → Char → Prop}

theorem covers_run_iff {pattern text : List Char} :
    Covers same ('%' :: pattern) text ↔ ∃ rest, rest <:+ text ∧ Covers same pattern rest := by
  constructor
  · intro h
    cases h with
    | run passed h => exact ⟨_, List.suffix_append _ _, h⟩
    | char hrun hone hsame h => exact absurd rfl hrun
  · rintro ⟨rest, ⟨passed, rfl⟩, h⟩
    exact .run passed h

/-- What a character other than `%` does: it takes one character, and then its pattern goes on. -/
theorem covers_cons_iff {pattern text : List Char} {c : Char} (hrun : c ≠ '%') :
    Covers same (c :: pattern) text ↔
      ∃ d rest, text = d :: rest ∧ (c = '_' ∨ same c d) ∧ Covers same pattern rest := by
  constructor
  · intro h
    cases h with
    | run passed h => exact absurd rfl hrun
    | one d h => exact ⟨d, _, rfl, Or.inl rfl, h⟩
    | char hrun hone hsame h => exact ⟨_, _, rfl, Or.inr hsame, h⟩
  · rintro ⟨d, rest, rfl, hd, h⟩
    by_cases hone : c = '_'
    · exact hone ▸ .one d h
    · exact .char hrun hone (hd.resolve_left hone) h

/-- A pattern that ends in `%` covers whatever more there is. -/
theorem Covers.append {pattern text : List Char} (h : Covers same pattern text)
    (hlast : pattern.getLast? = some '%') (more : List Char) :
    Covers same pattern (text ++ more) := by
  induction h with
  | nil => cases hlast
  | @run pattern text passed h ih =>
      rw [List.append_assoc]
      cases pattern with
      | nil =>
          cases h
          simpa using Covers.run (passed ++ more) Covers.nil
      | cons c pattern => exact .run passed (ih (by simpa using hlast))
  | @one pattern text c h ih =>
      cases pattern with
      | nil => cases hlast
      | cons d pattern => exact .one c (ih (by simpa using hlast))
  | @char pattern text c d hrun hone hsame h ih =>
      cases pattern with
      | nil => exact absurd (Option.some.inj hlast) hrun
      | cons e pattern => exact .char hrun hone hsame (ih (by simpa using hlast))

/-- A pattern covers a text, or all of it but a line break that ends it. -/
def CoversBody (same : Char → Char → Prop) (pattern text : List Char) : Prop :=
  ∃ body rest, text = body ++ rest ∧ Covers same pattern body ∧ (rest = [] ∨ rest = ['\n'])

theorem coversBody_iff {pattern text : List Char} : CoversBody same pattern text ↔
    Covers same pattern text ∨ ∃ cut, text = cut ++ ['\n'] ∧ Covers same pattern cut := by
  constructor
  · rintro ⟨body, rest, htext, h, rfl | rfl⟩
    · rw [List.append_nil] at htext
      exact Or.inl (htext ▸ h)
    · exact Or.inr ⟨body, htext, h⟩
  · rintro (h | ⟨cut, htext, h⟩)
    · exact ⟨text, [], (List.append_nil text).symm, h, Or.inl rfl⟩
    · exact ⟨cut, ['\n'], htext, h, Or.inr rfl⟩

theorem coversBody_nil_iff {text : List Char} :
    CoversBody same [] text ↔ text = [] ∨ text = ['\n'] := by
  constructor
  · rintro ⟨_, rest, rfl, ⟨⟩, hrest⟩
    exact hrest
  · intro h
    exact ⟨[], text, rfl, .nil, h⟩

theorem coversBody_run_iff {pattern text : List Char} : CoversBody same ('%' :: pattern) text ↔
    ∃ rest, rest <:+ text ∧ CoversBody same pattern rest := by
  constructor
  · rintro ⟨body, rest, rfl, h, hrest⟩
    obtain ⟨body', ⟨passed, rfl⟩, h'⟩ := covers_run_iff.mp h
    exact ⟨body' ++ rest, ⟨passed, (List.append_assoc ..).symm⟩, body', rest, rfl, h', hrest⟩
  · rintro ⟨_, ⟨passed, rfl⟩, body, rest, rfl, h, hrest⟩
    exact ⟨passed ++ body, rest, (List.append_assoc ..).symm, .run passed h, hrest⟩

theorem coversBody_cons_iff {pattern text : List Char} {c : Char} (hrun : c ≠ '%') :
    CoversBody same (c :: pattern) text ↔
      ∃ d rest, text = d :: rest ∧ (c = '_' ∨ same c d) ∧ CoversBody same pattern rest := by
  constructor
  · rintro ⟨body, rest, rfl, h, hrest⟩
    obtain ⟨d, body', rfl, hd, h'⟩ := (covers_cons_iff hrun).mp h
    exact ⟨d, body' ++ rest, rfl, hd, body', rest, rfl, h', hrest⟩
  · rintro ⟨d, _, rfl, hd, body, rest, rfl, h, hrest⟩
    exact ⟨d :: body, rest, rfl, (covers_cons_iff hrun).mpr ⟨d, body, rfl, hd, h⟩, hrest⟩

/-- What covers all but the line break at the end covers the whole text, unless there is such a line
break and the pattern does not end in `%`. -/
theorem CoversBody.covers {pattern text : List Char} (h : CoversBody same pattern text)
    (hlast : text.getLast? = some '\n' → pattern.getLast? = some '%') :
    Covers same pattern text := by
  rcases coversBody_iff.mp h with hwhole | ⟨cut, rfl, hcut⟩
  · exact hwhole
  · exact hcut.append (hlast List.getLast?_concat) ['\n']

/-! ## Matching -/

theorem covers_iff {test : Char → Char → Bool} (htest : ∀ c d, test c d = true ↔ same c d)
    {pattern text : List Char} : covers test pattern text = true ↔ Covers same pattern text := by
  induction pattern generalizing text with
  | nil =>
      rw [covers, List.isEmpty_iff]
      constructor
      · rintro rfl
        exact .nil
      · rintro ⟨⟩
        rfl
  | cons c pattern ih =>
      by_cases hrun : c = '%'
      · subst hrun
        rw [covers.eq_def, covers_run_iff]
        simp only [if_true, List.any_eq_true, mem_suffixes_iff, ih]
      · rw [covers.eq_def, covers_cons_iff hrun]
        cases text with
        | nil => simp [hrun]
        | cons d rest =>
            simp only [if_neg hrun, Bool.and_eq_true, Bool.or_eq_true, decide_eq_true_eq, htest,
              ih, List.cons.injEq]
            constructor
            · rintro ⟨hd, h⟩
              exact ⟨d, rest, ⟨rfl, rfl⟩, hd, h⟩
            · rintro ⟨_, _, ⟨rfl, rfl⟩, hd, h⟩
              exact ⟨hd, h⟩

theorem withoutFinalBreak?_eq_some_iff {text cut : List Char} :
    withoutFinalBreak? text = some cut ↔ text = cut ++ ['\n'] := by
  rw [withoutFinalBreak?]
  constructor
  · intro h
    split at h
    · rename_i hlast
      obtain ⟨front, rfl⟩ := List.getLast?_eq_some_iff.mp hlast
      rw [List.dropLast_concat] at h
      rw [Option.some.inj h]
    · cases h
  · rintro rfl
    rw [if_pos List.getLast?_concat, List.dropLast_concat]

theorem matchesBy_iff {test : Char → Char → Bool} (htest : ∀ c d, test c d = true ↔ same c d)
    {pattern text : List Char} :
    matchesBy test pattern text = true ↔ CoversBody same pattern text := by
  have hbreak : ((withoutFinalBreak? text).map (covers test pattern)).getD false = true ↔
      ∃ cut, text = cut ++ ['\n'] ∧ Covers same pattern cut := by
    simp only [← withoutFinalBreak?_eq_some_iff, ← covers_iff htest]
    cases withoutFinalBreak? text <;> simp
  rw [matchesBy, Bool.or_eq_true, hbreak, covers_iff htest, coversBody_iff]

end Criteria.Like
