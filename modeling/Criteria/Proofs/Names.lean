import Criteria.Proofs.Fragments
import Criteria.Proofs.Replay

/-!
# Names of a numbered sequence

The identifiers of a numbered sequence are all different, and since an identifier ends at the first
low line behind its number, so are the names of the parameters of different conditions.  Whatever a
tree composes to with such a sequence can therefore be bound.  Identifiers without braces also leave
every template readable, so each condition that is admitted becomes a clause.
-/

namespace Criteria

/-! ## Numerals -/

theorem toList_toString_int (k : Int) : (toString k).toList =
    if 0 ≤ k then Nat.toDigits 10 k.toNat else '-' :: Nat.toDigits 10 (-k).toNat := by
  cases k with
  | ofNat n => exact Nat.toList_repr
  | negSucc n =>
      have hnegative : ¬(0 ≤ Int.negSucc n) := by omega
      rw [if_neg hnegative]
      change ("-" ++ Nat.repr (n + 1)).toList = _
      rw [String.toList_append, Nat.toList_repr]
      rfl

theorem isDigit_or_minus_of_mem_toString {k : Int} {c : Char} (h : c ∈ (toString k).toList) :
    c.isDigit ∨ c = '-' := by
  have hdigit : ∀ n : Nat, c ∈ Nat.toDigits 10 n → c.isDigit := fun n hc ↦
    Nat.isDigit_of_mem_toDigits (by decide) (by decide) hc
  rw [toList_toString_int] at h
  split at h
  · exact Or.inl (hdigit _ h)
  · rcases List.mem_cons.mp h with rfl | hc
    · exact Or.inr rfl
    · exact Or.inl (hdigit _ hc)

theorem isPlain_toString (k : Int) : IsPlain (toString k).toList := by
  intro c hc
  rcases isDigit_or_minus_of_mem_toString hc with hdigit | rfl
  · constructor
    · rintro rfl
      exact absurd hdigit (by decide)
    · rintro rfl
      exact absurd hdigit (by decide)
  · decide

theorem underscore_notMem_toString (k : Int) : '_' ∉ (toString k).toList := by
  intro hc
  rcases isDigit_or_minus_of_mem_toString hc with hdigit | hminus
  · exact absurd hdigit (by decide)
  · exact absurd hminus (by decide)

theorem toDigits_injective {n m : Nat} (h : Nat.toDigits 10 n = Nat.toDigits 10 m) : n = m := by
  have hvalue := congrArg (Nat.ofDigitChars 10 · 0) h
  simpa using hvalue

theorem toString_int_injective {k l : Int} (h : (toString k).toList = (toString l).toList) :
    k = l := by
  have hminus : ∀ n : Nat, '-' ∉ Nat.toDigits 10 n := fun n hc ↦
    absurd (Nat.isDigit_of_mem_toDigits (by decide) (by decide) hc) (by decide)
  rw [toList_toString_int, toList_toString_int] at h
  by_cases hk : 0 ≤ k <;> by_cases hl : 0 ≤ l
  · rw [if_pos hk, if_pos hl] at h
    have hnat := toDigits_injective h
    omega
  · rw [if_pos hk, if_neg hl] at h
    exact absurd (h ▸ List.mem_cons_self) (hminus k.toNat)
  · rw [if_neg hk, if_pos hl] at h
    exact absurd (h ▸ List.mem_cons_self) (hminus l.toNat)
  · rw [if_neg hk, if_neg hl] at h
    have hnat := toDigits_injective (List.cons.inj h).2
    omega

/-! ## Names -/

/-- The names that begin with an identifier. -/
def NamedBy (id name : String) : Prop := ∃ rest, name = id ++ "_" ++ rest

theorem takeWhile_to_underscore {cs : List Char} (h : '_' ∉ cs) (rest : List Char) :
    (cs ++ '_' :: rest).takeWhile (· ≠ '_') = cs := by
  have hne : ∀ c ∈ cs, decide (c ≠ '_') = true := by
    intro c hc
    have hc' : c ≠ '_' := fun heq ↦ h (heq ▸ hc)
    simpa using hc'
  rw [List.takeWhile_append_of_pos hne]
  simp

/-- A name tells with which number of a sequence it begins. -/
theorem NamedBy.number_eq {lead name : String} {k l : Int} (hk : NamedBy (lead ++ toString k) name)
    (hl : NamedBy (lead ++ toString l) name) : k = l := by
  obtain ⟨rest, rfl⟩ := hk
  obtain ⟨other, h⟩ := hl
  have hlists := congrArg String.toList h
  simp only [String.toList_append, List.append_assoc] at hlists
  have htails : (toString k).toList ++ '_' :: rest.toList =
      (toString l).toList ++ '_' :: other.toList := List.append_cancel_left hlists
  have hnumbers := congrArg (List.takeWhile (· ≠ '_')) htails
  rw [takeWhile_to_underscore (underscore_notMem_toString k),
    takeWhile_to_underscore (underscore_notMem_toString l)] at hnumbers
  exact toString_int_injective hnumbers

theorem namedBy_parameterName (id operator : String) (fieldAlias : Value)
    (suffix : Option String) :
    NamedBy id ((BindContext.create id operator fieldAlias).parameterName suffix) := by
  have hstem : NamedBy id (BindContext.create id operator fieldAlias).stem :=
    ⟨operator ++ "_" ++ fieldSegment fieldAlias, by simp [BindContext.create, String.append_assoc]⟩
  obtain ⟨rest, hrest⟩ := hstem
  cases suffix with
  | none => exact ⟨rest, hrest⟩
  | some suffix =>
      simp only [BindContext.parameterName]
      split
      · exact ⟨rest, hrest⟩
      · exact ⟨rest ++ "_" ++ suffix, by rw [hrest]; simp [String.append_assoc]⟩

theorem Criterion.exists_parameterName {ctx : BindContext} {c : Criterion} {f : Fragment}
    (h : c.fragment ctx = .ok f) :
    ∀ p ∈ f.parameters, ∃ suffix, p.1 = ctx.parameterName suffix := by
  cases c with
  | document relation operand json =>
      obtain ⟨query, -, rfl⟩ := fragment_document h
      intro p hp
      obtain rfl := List.mem_singleton.mp hp
      exact ⟨none, rfl⟩
  | range negated low high =>
      cases h
      intro p hp
      simp only [List.mem_cons, List.not_mem_nil, or_false] at hp
      rcases hp with rfl | rfl
      · exact ⟨some "start", rfl⟩
      · exact ⟨some "end", rfl⟩
  | hasKey key =>
      cases h
      intro p hp
      obtain rfl := List.mem_singleton.mp hp
      exact ⟨some "key", rfl⟩
  | _ =>
      cases h
      intro p hp
      obtain rfl := List.mem_singleton.mp hp
      exact ⟨none, rfl⟩

theorem Admitted.namedBy_of_mem_parameters {id : String} {fieldAlias : Value} {a : Admitted}
    {f : Fragment} (h : a.fragment id fieldAlias = .ok f) :
    ∀ p ∈ f.parameters, a.drawsId = true ∧ NamedBy id p.1 := by
  cases a with
  | nullCheck negated =>
      cases h
      simp [Fragment.nullCheck]
  | criterion o c =>
      intro p hp
      obtain ⟨suffix, hname⟩ := Criterion.exists_parameterName h p hp
      rw [hname]
      exact ⟨rfl, namedBy_parameterName id o.name fieldAlias suffix⟩

/-! ## Names without braces -/

theorem isPlain_name (o : Operator) : IsPlain o.name.toList := by
  cases o <;> decide

theorem isPlain_fieldSegment (field : Value) : IsPlain (fieldSegment field).toList := by
  have hdefault : IsPlain defaultSegment.toList := by decide
  cases field with
  | text s =>
      rw [fieldSegment]
      split
      · exact hdefault
      · rw [String.toList_ofList]
        intro c hc
        have hword : Text.isWord c = true := Text.isWord_of_mem_wordOnly hc
        constructor
        · rintro rfl
          exact absurd hword (by decide)
        · rintro rfl
          exact absurd hword (by decide)
  | _ => exact hdefault

theorem isPlain_stem {id : String} (h : IsPlain id.toList) (o : Operator) (fieldAlias : Value) :
    IsPlain (BindContext.create id o.name fieldAlias).stem.toList := by
  have hline : IsPlain "_".toList := by decide
  simp only [BindContext.create, String.toList_append, isPlain_append]
  exact ⟨⟨⟨⟨h, hline⟩, isPlain_name o⟩, hline⟩, isPlain_fieldSegment fieldAlias⟩

theorem Criterion.exists_fragment {ctx : BindContext} (h : IsPlain ctx.stem.toList)
    (c : Criterion) : ∃ f, c.fragment ctx = .ok f := by
  cases c with
  | document relation operand json =>
      exact ⟨_, fragment_document_of_isPlain h relation operand json⟩
  | _ => exact ⟨_, rfl⟩

theorem Admitted.exists_fragment {id : String} (h : IsPlain id.toList) (a : Admitted)
    (fieldAlias : Value) : ∃ f, a.fragment id fieldAlias = .ok f := by
  cases a with
  | nullCheck negated => exact ⟨_, rfl⟩
  | criterion o c => exact Criterion.exists_fragment (isPlain_stem h o fieldAlias) c

/-- The alias of a name has a point in it, so it is not blank. -/
theorem exists_alias_of_text (s : String) (base : Value) :
    ∃ fieldAlias, resolveAlias (.text s) base = .ok fieldAlias ∧
      checkAlias (.text fieldAlias) = .ok () := by
  have hpoint : ∀ fieldAlias : String, '.' ∈ fieldAlias.toList →
      checkAlias (.text fieldAlias) = .ok () := by
    intro fieldAlias hmem
    have hblank : ¬Text.isBlankText fieldAlias = true := by
      intro hall
      exact absurd (List.all_eq_true.mp hall '.' hmem) (by decide)
    rw [checkAlias, if_neg hblank]
  refine ⟨_, rfl, hpoint _ ?_⟩
  split
  · simp [relationAlias]
  · simp [baseAlias, String.toList_append]

/-- An admitted condition under a name becomes a clause when the next identifier is without
braces. -/
theorem FilterTree.exists_leafFragment {registry : Registry} {condition : Value} {a : Admitted}
    (h : admission registry condition = .ok a) {ids : IdSource}
    (hids : IsPlain ids.current.toList) (base : Value) (s : String) :
    ∃ f, leafFragment registry base (.text s) condition ids = .ok f (a.idsAfter ids) := by
  obtain ⟨fieldAlias, halias, hcheck⟩ := exists_alias_of_text s base
  obtain ⟨f, hf⟩ := a.exists_fragment hids (.text fieldAlias)
  exact ⟨f, leafFragment_eq_ok_iff.mpr ⟨fieldAlias, halias,
    compileFragment_eq_ok_iff.mpr ⟨hcheck, a, h, hf, rfl⟩⟩⟩

/-! ## Parameters of a tree -/

open Clause (Item Bindable bindable_append parametersOf)

/-- Parameters whose names all begin with identifiers of a sequence before a number. -/
def NamedBefore (lead : String) (next : Int) (bound : Parameters) : Prop :=
  ∀ p ∈ bound, ∃ k < next, NamedBy (lead ++ toString k) p.1

theorem Admitted.idsAfter_sequence (a : Admitted) (lead : String) (next : Int) :
    a.idsAfter (.sequence lead next) =
      .sequence lead (if a.drawsId then next + 1 else next) := by
  rw [Admitted.idsAfter]
  split
  · rfl
  · rfl

/-- The fragment of a leaf has new names, and afterwards the sequence is past them. -/
theorem NamedBefore.leafFragment {registry : Registry} {base field condition : Value}
    {lead : String} {next : Int} {f : Fragment} {ids' : IdSource} {bound : Parameters}
    (h : NamedBefore lead next bound) (hleaf : FilterTree.leafFragment registry base field condition
      (.sequence lead next) = .ok f ids') :
    (∀ p ∈ f.parameters, bound.binds p.1 = false) ∧
      ∃ next', ids' = .sequence lead next' ∧ NamedBefore lead next' (bound ++ f.parameters) := by
  obtain ⟨fieldAlias, -, hcompile⟩ := FilterTree.leafFragment_eq_ok_iff.mp hleaf
  obtain ⟨-, a, -, hfragment, rfl⟩ := compileFragment_eq_ok_iff.mp hcompile
  have hnames := Admitted.namedBy_of_mem_parameters hfragment
  constructor
  · intro p hp
    obtain ⟨-, hname⟩ := hnames p hp
    apply List.any_eq_false.mpr
    intro q hq hsame
    obtain ⟨k, hk, hold⟩ := h q hq
    have heq : q.1 = p.1 := by simpa using hsame
    have hnumber : k = next := (heq ▸ hold).number_eq hname
    omega
  · refine ⟨_, a.idsAfter_sequence lead next, ?_⟩
    intro p hp
    rcases List.mem_append.mp hp with hold | hnew
    · obtain ⟨k, hk, hname⟩ := h p hold
      refine ⟨k, ?_, hname⟩
      split <;> omega
    · obtain ⟨hdraws, hname⟩ := hnames p hnew
      refine ⟨next, ?_, hname⟩
      rw [if_pos hdraws]
      omega

/-- What a tree composes to with a numbered sequence can be bound, whatever was bound before with
lower numbers. -/
theorem FilterTree.Composes.bindable {registry : Registry} {base : Value} {join : Join}
    {entries : List (Value × Value)} {ids ids' : IdSource} {items : List (Item Fragment)}
    (h : Composes registry base join entries ids items ids') {lead : String} {next : Int}
    (hids : ids = .sequence lead next) {bound : Parameters} (hbound : NamedBefore lead next bound) :
    Bindable bound (Item.contents items) ∧ ∃ next', ids' = .sequence lead next' ∧
      NamedBefore lead next' (bound ++ parametersOf (Item.contents items)) := by
  induction h generalizing next bound with
  | nil => exact ⟨trivial, next, hids, by simpa [Item.contents, parametersOf] using hbound⟩
  | leaf hkey hleaf hrest ih =>
      subst hids
      obtain ⟨hnew, next', hids', hbound'⟩ := hbound.leafFragment hleaf
      obtain ⟨hbind, last, hlast, hall⟩ := ih hids' hbound'
      refine ⟨⟨hnew, hbind⟩, last, hlast, ?_⟩
      simpa [Item.contents, Item.contentsOf, parametersOf] using hall
  | group hkey htrees hinner hrest ihInner ih =>
      obtain ⟨hheld, next', hids', hbound'⟩ := ihInner hids hbound
      obtain ⟨hbind, last, hlast, hall⟩ := ih hids' hbound'
      refine ⟨bindable_append.mpr ⟨hheld, hbind⟩, last, hlast, ?_⟩
      simpa [Item.contents, Item.contentsOf, parametersOf] using hall

end Criteria
