import Criteria.Proofs.Names

/-!
# Names made of word characters

An identifier made of word characters makes a name that is made of word characters, whatever the
operator and the field are.  Such a name holds no sign by which a template, a placeholder or a word
of a query could end inside it.
-/

namespace Criteria

/-- Characters all of which may stand in a word. -/
def IsWordOnly (cs : List Char) : Prop := ∀ c ∈ cs, Text.isWord c = true

instance (cs : List Char) : Decidable (IsWordOnly cs) :=
  decidable_of_iff (cs.all Text.isWord) List.all_eq_true

theorem isWordOnly_append {cs others : List Char} :
    IsWordOnly (cs ++ others) ↔ IsWordOnly cs ∧ IsWordOnly others := by
  simp only [IsWordOnly, List.mem_append]
  constructor
  · intro h
    exact ⟨fun c hc ↦ h c (Or.inl hc), fun c hc ↦ h c (Or.inr hc)⟩
  · rintro ⟨hcs, hothers⟩ c (hc | hc)
    · exact hcs c hc
    · exact hothers c hc

theorem IsWordOnly.notMem {cs : List Char} (h : IsWordOnly cs) {c : Char}
    (hc : Text.isWord c = false) : c ∉ cs := by
  intro hmem
  rw [h c hmem] at hc
  cases hc

theorem IsWordOnly.isPlain {cs : List Char} (h : IsWordOnly cs) : IsPlain cs := by
  intro c hc
  constructor
  · rintro rfl
    exact h.notMem (by decide) hc
  · rintro rfl
    exact h.notMem (by decide) hc

/-! ## Names of parameters -/

theorem isWordOnly_name (o : Operator) : IsWordOnly o.name.toList := by
  cases o <;> decide

theorem isWordOnly_fieldSegment (field : Value) : IsWordOnly (fieldSegment field).toList := by
  have hdefault : IsWordOnly defaultSegment.toList := by decide
  cases field with
  | text s =>
      rw [fieldSegment]
      split
      · exact hdefault
      · rw [String.toList_ofList]
        exact fun c hc ↦ Text.isWord_of_mem_wordOnly hc
  | _ => exact hdefault

theorem isWordOnly_stem {id : String} (h : IsWordOnly id.toList) (o : Operator)
    (fieldAlias : Value) : IsWordOnly (BindContext.create id o.name fieldAlias).stem.toList := by
  have hline : IsWordOnly "_".toList := by decide
  simp only [BindContext.create, String.toList_append, isWordOnly_append]
  exact ⟨⟨⟨⟨h, hline⟩, isWordOnly_name o⟩, hline⟩, isWordOnly_fieldSegment fieldAlias⟩

theorem BindContext.isWordOnly_parameterName {ctx : BindContext} (h : IsWordOnly ctx.stem.toList)
    (suffix : String) (hsuffix : IsWordOnly suffix.toList) :
    IsWordOnly (ctx.parameterName (some suffix)).toList := by
  have hline : IsWordOnly "_".toList := by decide
  rw [BindContext.parameterName]
  split
  · exact h
  · simp only [String.toList_append, isWordOnly_append]
    exact ⟨⟨h, hline⟩, hsuffix⟩

theorem stem_ne_nil (id operator : String) (fieldAlias : Value) :
    (BindContext.create id operator fieldAlias).stem.toList ≠ [] := by
  simp [BindContext.create, String.toList_append]

theorem BindContext.parameterName_ne_nil (ctx : BindContext) (h : ctx.stem.toList ≠ [])
    (suffix : Option String) : (ctx.parameterName suffix).toList ≠ [] := by
  cases suffix with
  | none => exact h
  | some suffix =>
      rw [parameterName]
      split
      · exact h
      · simp [String.toList_append]

/-- The two ends of a range have different names. -/
theorem BindContext.start_ne_end (ctx : BindContext) :
    ctx.parameterName (some "start") ≠ ctx.parameterName (some "end") := by
  intro h
  have hlists := congrArg String.toList h
  have hstart : ctx.parameterName (some "start") = ctx.stem ++ "_" ++ "start" := rfl
  have hend : ctx.parameterName (some "end") = ctx.stem ++ "_" ++ "end" := rfl
  simp only [hstart, hend, String.toList_append] at hlists
  have hsuffixes : "start".toList = "end".toList := List.append_cancel_left hlists
  exact absurd hsuffixes (by decide)

/-- Parameters that have names, each a different one. -/
structure Parameters.AreNamed (ps : Parameters) : Prop where
  ne_empty : ∀ p ∈ ps, p.1 ≠ ""
  nodup : (ps.map (·.1)).Nodup

theorem Criterion.areNamed {ctx : BindContext} (hstem : ctx.stem.toList ≠ []) {c : Criterion}
    {f : Fragment} (h : c.fragment ctx = .ok f) : f.parameters.AreNamed := by
  constructor
  · intro p hp hempty
    obtain ⟨suffix, hname⟩ := exists_parameterName h p hp
    rw [hempty] at hname
    exact ctx.parameterName_ne_nil hstem suffix (by rw [← hname, String.toList_empty])
  · cases c with
    | document relation operand json =>
        obtain ⟨query, -, rfl⟩ := fragment_document h
        exact List.pairwise_singleton _ _
    | range negated low high =>
        cases h
        simpa using ctx.start_ne_end
    | _ =>
        cases h
        exact List.pairwise_singleton _ _

theorem Admitted.areNamed {id : String} {fieldAlias : Value} {a : Admitted} {f : Fragment}
    (h : a.fragment id fieldAlias = .ok f) : f.parameters.AreNamed := by
  cases a with
  | nullCheck negated =>
      cases h
      exact ⟨nofun, List.nodup_nil⟩
  | criterion o c => exact Criterion.areNamed (stem_ne_nil id o.name fieldAlias) h

/-! ## Sources of identifiers -/

/-- A source all of whose identifiers are made of word characters. -/
def IdSource.IsWordOnly (ids : IdSource) : Prop :=
  ∀ n, ∀ id ∈ ids.take n, Criteria.IsWordOnly id.toList

theorem IdSource.IsWordOnly.current {ids : IdSource} (h : ids.IsWordOnly) :
    Criteria.IsWordOnly ids.current.toList :=
  h 1 ids.current List.mem_cons_self

theorem IdSource.IsWordOnly.advance {ids : IdSource} (h : ids.IsWordOnly) :
    ids.advance.IsWordOnly :=
  fun n id hid ↦ h (n + 1) id (List.mem_cons_of_mem _ hid)

theorem IdSource.IsWordOnly.idsAfter {ids : IdSource} (h : ids.IsWordOnly) (a : Admitted) :
    (a.idsAfter ids).IsWordOnly := by
  rw [Admitted.idsAfter]
  split
  · exact h.advance
  · exact h

theorem isWord_of_isDigit {c : Char} (h : c.isDigit = true) : Text.isWord c = true := by
  have hcode : 48 ≤ c.toNat ∧ c.toNat ≤ 57 := Char.isDigit_iff_toNat.mp h
  have hlow : ¬c.toNat < 0x30 := by omega
  rw [Text.isWord, Text.wordRanges, Text.Ranges.contains, if_neg hlow, if_pos hcode.2]

theorem isWordOnly_toString {k : Int} (h : 0 ≤ k) : IsWordOnly (toString k).toList := by
  intro c hc
  rw [toList_toString_int, if_pos h] at hc
  exact isWord_of_isDigit (Nat.isDigit_of_mem_toDigits (by decide) (by decide) hc)

/-- A numbered sequence that starts at a number which is not negative. -/
theorem isWordOnly_sequence {lead : String} (hlead : IsWordOnly lead.toList) {next : Int}
    (hnext : 0 ≤ next) : (IdSource.sequence lead next).IsWordOnly := by
  intro n
  induction n generalizing next with
  | zero => exact nofun
  | succ n ih =>
      intro id hid
      rcases List.mem_cons.mp hid with rfl | hid
      · rw [IdSource.current, String.toList_append, isWordOnly_append]
        exact ⟨hlead, isWordOnly_toString hnext⟩
      · exact ih (by omega) id hid

theorem isWordOnly_constant {id : String} (h : IsWordOnly id.toList) :
    (IdSource.constant id).IsWordOnly := by
  intro n
  induction n with
  | zero => exact nofun
  | succ n ih =>
      intro other hother
      rcases List.mem_cons.mp hother with rfl | hother
      · exact h
      · exact ih other hother

end Criteria
