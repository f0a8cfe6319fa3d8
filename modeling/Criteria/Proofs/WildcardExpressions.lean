import Criteria.Memory.Evaluator
import Criteria.Proofs.Wildcards

/-!
# Patterns as regular expressions

Each character of a pattern is written as one expression of its own, and what is written is read
back as these expressions in a row between two anchors.  A repeat of any characters tries every
place up to the end of the text, so the row matches exactly what the pattern covers, with the anchor
at its end before a line break that ends the text as well.
-/

namespace Criteria

namespace Like

open Regex (Node Notes Term Flag Pattern readAtom readBranch readCount? readManner)

/-- What a character of a pattern stands for. -/
def node (c : Char) : Node :=
  if c = '%' then .times .greedy 0 none (.single .any)
  else if c = '_' then .single .any
  else .single (.char c.toNat)

/-- What a pattern stands for, from the front of a text to its end. -/
def row (pattern : List Char) : List Node :=
  .anchor .lineStart :: (pattern.map node ++ [.anchor .lineEnd])

/-- A pattern as it is written behind the anchor at its front. -/
def written (pattern : List Char) : List Char := pattern.flatMap regexChars ++ ['$']

/-! ## Reading -/

theorem readEscape?_of_mem_special {c : Char} (h : c ∈ special) (rest : List Char) :
    Regex.readEscape? false (c :: rest) = some (.char c.toNat, rest) := by
  simp only [special, List.mem_cons, List.not_mem_nil, or_false] at h
  rcases h with rfl | rfl | rfl | rfl | rfl | rfl | rfl | rfl | rfl | rfl | rfl | rfl | rfl | rfl |
    rfl | rfl | rfl | rfl | rfl | rfl | rfl | rfl | rfl | rfl <;> rfl

theorem readAtom_of_mem_special {c : Char} (h : c ∈ special) (rest : List Char) :
    readAtom ('\\' :: c :: rest) = pure (.single (.char c.toNat), rest) := by
  rw [readAtom, readEscape?_of_mem_special h]
  rfl

theorem ne_of_notMem_special {c d : Char} (h : c ∉ special) (hd : d ∈ special) : c ≠ d :=
  fun hsame ↦ h (hsame ▸ hd)

theorem readAtom_of_notMem_special {c : Char} (h : c ∉ special) (rest : List Char) :
    readAtom (c :: rest) = pure (.single (.char c.toNat), rest) := by
  have hdot : c ≠ '.' := ne_of_notMem_special h (by decide)
  have hstart : c ≠ '^' := ne_of_notMem_special h (by decide)
  have hend : c ≠ '$' := ne_of_notMem_special h (by decide)
  have hclass : c ≠ '[' := ne_of_notMem_special h (by decide)
  have hescape : c ≠ '\\' := ne_of_notMem_special h (by decide)
  rw [Regex.readAtom.eq_def]
  simp

theorem readCount?_of_notMem_special {c : Char} (h : c ∉ special) (rest : List Char) :
    readCount? (c :: rest) = none := by
  have hstar : c ≠ '*' := ne_of_notMem_special h (by decide)
  have hplus : c ≠ '+' := ne_of_notMem_special h (by decide)
  have hmark : c ≠ '?' := ne_of_notMem_special h (by decide)
  have hbrace : c ≠ '\x7b' := ne_of_notMem_special h (by decide)
  rw [Regex.readCount?.eq_def]
  split <;> simp_all

section Steps

variable {size : Nat} {leading : Bool} {done : List Term} {rest rest' : List Char} {c : Char}
  {u : Node}

theorem readBranch_atom (hopen : c ≠ '(') (hclose : c ≠ ')') (hor : c ≠ '|')
    (hcount : readCount? (c :: rest) = none) (hatom : readAtom (c :: rest) = pure (u, rest')) :
    readBranch (size + 1) leading false done (c :: rest) =
      readBranch size leading false (.ofNode u :: done) rest' := by
  rw [Regex.readBranch.eq_def]
  simp [hcount, hatom]

/-- A star repeats the expression before it, whatever follows that is neither a sign of its own nor
a backslash at the very end. -/
theorem readBranch_star (hlast : rest ≠ ['\\']) (hmanner : readManner rest = (.greedy, rest))
    (notes : Notes) :
    readBranch (size + 1) leading false (⟨[u], true⟩ :: done) ('*' :: rest) notes =
      readBranch size leading false (⟨[.times .greedy 0 none u], false⟩ :: done) rest
        { notes with repeats := true } := by
  rw [Regex.readBranch.eq_def]
  simp [readCount?, Regex.repeatLast, hlast, hmanner]
  rfl

end Steps

/-- How a character is written: a wildcard, escaped, or as it is. -/
inductive IsWritten (c : Char) : List Char → Prop where
  | run (h : c = '%') : IsWritten c ['.', '*']
  | one (h : c = '_') : IsWritten c ['.']
  | escaped (hrun : c ≠ '%') (hone : c ≠ '_') (h : c ∈ special) : IsWritten c ['\\', c]
  | plain (hrun : c ≠ '%') (hone : c ≠ '_') (h : c ∉ special) : IsWritten c [c]

theorem isWritten_regexChars (c : Char) : IsWritten c (regexChars c) := by
  rw [regexChars]
  split
  · rename_i hrun
    exact .run hrun
  · rename_i hrun
    split
    · rename_i hone
      exact .one hone
    · rename_i hone
      split
      · rename_i h
        exact .escaped hrun hone (List.contains_iff_mem.mp h)
      · rename_i h
        exact .plain hrun hone fun hc ↦ h (List.contains_iff_mem.mpr hc)

theorem written_cons (c : Char) (pattern : List Char) :
    written (c :: pattern) = regexChars c ++ written pattern := by
  rw [written, written, List.flatMap_cons, List.append_assoc]

/-- What is written does not go on a repeat before it, nor is it cut off. -/
theorem readManner_written (pattern : List Char) :
    readManner (written pattern) = (.greedy, written pattern) ∧ written pattern ≠ ['\\'] := by
  cases pattern with
  | nil => exact ⟨rfl, by decide⟩
  | cons c pattern =>
      have hc := isWritten_regexChars c
      rw [written_cons]
      generalize regexChars c = cs at hc ⊢
      cases hc with
      | run h => exact ⟨rfl, by simp⟩
      | one h => exact ⟨rfl, by simp⟩
      | escaped hrun hone h => exact ⟨rfl, by simp⟩
      | plain hrun hone h =>
          have hmark : c ≠ '?' := ne_of_notMem_special h (by decide)
          have hplus : c ≠ '+' := ne_of_notMem_special h (by decide)
          have hescape : c ≠ '\\' := ne_of_notMem_special h (by decide)
          refine ⟨?_, by simp [hescape]⟩
          rw [List.cons_append, Regex.readManner.eq_def]
          split <;> simp_all

/-- What one character is written as becomes one term. -/
theorem exists_readBranch_regexChars (c : Char) (pattern : List Char) {size : Nat}
    (hsize : (regexChars c).length ≤ size) (leading : Bool) (done : List Term) (notes : Notes) :
    ∃ size' t repeats, size ≤ size' + (regexChars c).length ∧ t.nodes = [node c] ∧
      readBranch size leading false done (regexChars c ++ written pattern) notes =
        readBranch size' leading false (t :: done) (written pattern) { notes with repeats } := by
  have hc := isWritten_regexChars c
  generalize regexChars c = cs at hc hsize ⊢
  cases hc with
  | run h =>
      subst h
      obtain ⟨size, rfl⟩ : ∃ n, size = n + 2 := Nat.exists_eq_add_of_le' hsize
      have hany : readBranch (size + 2) leading false done ('.' :: '*' :: written pattern) =
          readBranch (size + 1) leading false (.ofNode (.single .any) :: done)
            ('*' :: written pattern) :=
        readBranch_atom (by decide) (by decide) (by decide) rfl rfl
      obtain ⟨hmanner, hlast⟩ := readManner_written pattern
      exact ⟨size, ⟨[node '%'], false⟩, true, Nat.le_refl _, rfl,
        (congrFun hany notes).trans (readBranch_star hlast hmanner notes)⟩
  | one h =>
      subst h
      obtain ⟨size, rfl⟩ : ∃ n, size = n + 1 := Nat.exists_eq_add_of_le' hsize
      have hany : readBranch (size + 1) leading false done ('.' :: written pattern) =
          readBranch size leading false (.ofNode (node '_') :: done) (written pattern) :=
        readBranch_atom (by decide) (by decide) (by decide) rfl rfl
      exact ⟨size, _, notes.repeats, Nat.le_refl _, rfl, congrFun hany notes⟩
  | escaped hrun hone h =>
      obtain ⟨size, rfl⟩ : ∃ n, size = n + 2 := Nat.exists_eq_add_of_le' hsize
      have hchar : readBranch (size + 2) leading false done ('\\' :: c :: written pattern) =
          readBranch (size + 1) leading false (.ofNode (.single (.char c.toNat)) :: done)
            (written pattern) :=
        readBranch_atom (by decide) (by decide) (by decide) rfl (readAtom_of_mem_special h _)
      refine ⟨size + 1, _, notes.repeats, Nat.le_succ _, ?_, congrFun hchar notes⟩
      rw [node, if_neg hrun, if_neg hone]
      rfl
  | plain hrun hone h =>
      obtain ⟨size, rfl⟩ : ∃ n, size = n + 1 := Nat.exists_eq_add_of_le' hsize
      have hchar : readBranch (size + 1) leading false done (c :: written pattern) =
          readBranch size leading false (.ofNode (.single (.char c.toNat)) :: done)
            (written pattern) :=
        readBranch_atom (ne_of_notMem_special h (by decide)) (ne_of_notMem_special h (by decide))
          (ne_of_notMem_special h (by decide)) (readCount?_of_notMem_special h _)
          (readAtom_of_notMem_special h _)
      refine ⟨size, _, notes.repeats, Nat.le_refl _, ?_, congrFun hchar notes⟩
      rw [node, if_neg hrun, if_neg hone]
      rfl

/-- What is written is read as the row of what its characters stand for.  Only that something is
repeated is noted. -/
theorem exists_readBranch_written {pattern : List Char} {size : Nat}
    (hsize : (written pattern).length < size) (leading : Bool) (done : List Term) (notes : Notes) :
    ∃ repeats, readBranch size leading false done (written pattern) notes =
      .ok ((done.reverse.flatMap Term.nodes ++ (pattern.map node ++ [.anchor .lineEnd]), []),
        { notes with repeats }) := by
  induction pattern generalizing size done notes with
  | nil =>
      obtain ⟨size, rfl⟩ : ∃ n, size = n + 2 := ⟨size - 2, by simp [written] at hsize; omega⟩
      refine ⟨notes.repeats, ?_⟩
      have hend : readBranch (size + 2) leading false done ['$'] =
          readBranch (size + 1) leading false (.ofNode (.anchor .lineEnd) :: done) [] :=
        readBranch_atom (by decide) (by decide) (by decide) rfl rfl
      rw [written, List.flatMap_nil, List.nil_append, hend, Regex.readBranch.eq_def]
      simp [Term.ofNode]
      rfl
  | cons c pattern ih =>
      rw [written_cons, List.length_append] at hsize
      have hfront : (regexChars c).length ≤ size := by omega
      obtain ⟨size', t, repeats, hle, ht, hread⟩ :=
        exists_readBranch_regexChars c pattern hfront leading done notes
      have hrest : (written pattern).length < size' := by omega
      obtain ⟨repeats', hrow⟩ := ih hrest (t :: done) { notes with repeats }
      refine ⟨repeats', ?_⟩
      rw [written_cons, hread, hrow]
      simp [ht]

theorem length_regexText (pattern : String) :
    (regexText pattern).length = (written pattern.toList).length + 1 := by
  rw [← String.length_toList, regexText, String.toList_ofList]
  rfl

/-- A pattern is a regular expression in whatever flags that leave its characters as they are. -/
theorem read_regexText {flags : List Flag} (hverbose : flags.contains .verbose = false)
    (hascii : flags.contains .ascii = false) (hrepeats : flags.contains .noRepeats = false)
    (pattern : String) : Regex.read flags (regexText pattern) =
      .ok ⟨.ofFlags flags, 0, .ofList (row pattern.toList), none⟩ := by
  have hsize : (written pattern.toList).length < 2 * (regexText pattern).length := by
    rw [length_regexText]
    omega
  obtain ⟨repeats, hrow⟩ := exists_readBranch_written hsize true
    [.ofNode (.anchor .lineStart)] (.start flags)
  have hfirst : readBranch (2 * (regexText pattern).length + 1) true false []
      (regexText pattern).toList = readBranch (2 * (regexText pattern).length) true false
        [.ofNode (.anchor .lineStart)] (written pattern.toList) := by
    rw [regexText, String.toList_ofList]
    exact readBranch_atom (by decide) (by decide) (by decide) rfl rfl
  have hreading : Regex.readAlternatives (2 * (regexText pattern).length + 2) true false []
      (regexText pattern).toList (.start flags) =
        .ok ((row pattern.toList, []), { Notes.start flags with repeats }) := by
    have hbranch := (congrFun hfirst _).trans hrow
    rw [Regex.readAlternatives]
    simp only [Bool.true_and, List.isEmpty_nil, bind, StateT.bind, hbranch, Except.bind]
    rfl
  have hfault : ({ Notes.start flags with repeats } : Notes).fault? true = none := by
    simp only [Notes.fault?, Notes.start, hascii, hrepeats]
    simp
  rw [Regex.read, hverbose, hreading]
  simp only [List.isEmpty_nil, hfault]
  have hfront : ∀ mode, (Node.ofList (row pattern.toList)).front? mode mode = none := by
    intro mode
    cases pattern.toList <;> rfl
  simp only [Pattern.ofNode, hfront, ite_self]
  rfl

end Like

/-! ## Matching -/

namespace Regex

/-- Whether a text begins with a match. -/
def Pattern.matchesFront (p : Pattern) (text : String) : Bool :=
  p.matchesAt ⟨[], text.toList, text.toList.length⟩

/-- A spot counts the characters that are left. -/
def Spot.IsSound (s : Spot) : Prop := s.place.left = s.place.after.length

/-- The way in which expressions in a row match. -/
def Node.wayOfRow (m : Mode) : List Node → Way
  | [], k => k
  | u :: nodes, k => u.way m (wayOfRow m nodes k)

theorem Node.way_ofList (nodes : List Node) (m : Mode) (k : Spot → Option Spot) :
    (ofList nodes).way m k = wayOfRow m nodes k := by
  induction nodes with
  | nil => rfl
  | cons u nodes ih =>
      cases nodes with
      | nil => rfl
      | cons v nodes =>
          rw [wayOfRow, ← ih]
          rfl

theorem Spot.step?_of_nil {test : Char → Bool} {s : Spot} (h : s.place.after = []) :
    s.step? test = none := by
  rw [step?, h]

theorem Spot.exists_step? {test : Char → Bool} {s : Spot} (hs : s.IsSound) {c : Char}
    {rest : List Char} (h : s.place.after = c :: rest) (hc : test c = true) :
    ∃ t, s.step? test = some t ∧ t.IsSound ∧ t.place.after = rest ∧
      s.place.left = t.place.left + 1 := by
  have hleft : s.place.left = rest.length + 1 := by rw [hs, h, List.length_cons]
  refine ⟨{ s with place := ⟨c :: s.place.before, rest, s.place.left - 1⟩ }, ?_, ?_, rfl, ?_⟩
  · simp only [step?, h, if_pos hc]
  · simp only [IsSound, hleft, Nat.add_sub_cancel]
  · simp only [hleft, Nat.add_sub_cancel]

section Ways

variable {k : Spot → Option Spot} {ends : List Char → Prop} {test : Char → Bool} {s : Spot}

/-- One character, when what comes afterwards depends only on the characters that are left. -/
theorem isSome_single_iff {u : Single} {m : Mode}
    (hk : ∀ t : Spot, t.IsSound → ((k t).isSome = true ↔ ends t.place.after)) (hs : s.IsSound) :
    ((Node.single u).way m k s).isSome = true ↔
      ∃ c rest, s.place.after = c :: rest ∧ u.holds m c = true ∧ ends rest := by
  rw [Node.way]
  cases h : s.place.after with
  | nil => simp [Spot.step?_of_nil h]
  | cons c rest =>
      by_cases hc : u.holds m c = true
      · obtain ⟨t, ht, hsound, rfl, -⟩ := Spot.exists_step? hs h hc
        simp only [ht, hk t hsound, List.cons.injEq]
        constructor
        · exact fun hends ↦ ⟨c, _, ⟨rfl, rfl⟩, hc, hends⟩
        · rintro ⟨_, _, ⟨rfl, rfl⟩, -, hends⟩
          exact hends
      · simp [Spot.step?, h, hc]

/-- Any number of characters, when what comes afterwards depends only on the characters that are
left. -/
theorem isSome_findSome?_onward_iff
    (hk : ∀ t : Spot, t.IsSound → ((k t).isSome = true ↔ ends t.place.after))
    (htest : ∀ c, test c = true) (hs : s.IsSound) (passed : List Spot) :
    ((s.onward test s.place.left passed).findSome? k).isSome = true ↔
      (∃ rest, rest <:+ s.place.after ∧ ends rest) ∨ ∃ t ∈ passed, (k t).isSome = true := by
  -- Each further spot is put in front of those that have been passed.
  generalize hleft : s.place.left = n
  induction n generalizing s passed with
  | zero =>
      have hnil : s.place.after = [] := List.length_eq_zero_iff.mp (hs.symm.trans hleft)
      simp [Spot.onward, List.findSome?_isSome_iff, hk s hs, hnil]
  | succ n ih =>
      obtain ⟨c, rest, h⟩ : ∃ c rest, s.place.after = c :: rest :=
        List.exists_cons_of_length_eq_add_one (hs.symm.trans hleft)
      obtain ⟨t, ht, hsound, rfl, hcount⟩ := Spot.exists_step? hs h (htest c)
      have hn : t.place.left = n := by omega
      have hsuffix : (∃ rest, rest <:+ s.place.after ∧ ends rest) ↔
          ends s.place.after ∨ ∃ rest, rest <:+ t.place.after ∧ ends rest := by
        simp only [h, List.suffix_cons_iff, or_and_right, exists_or, exists_eq_left]
      have hpassed : (∃ t ∈ s :: passed, (k t).isSome = true) ↔
          ends s.place.after ∨ ∃ t ∈ passed, (k t).isSome = true := by
        simp only [List.mem_cons, or_and_right, exists_or, exists_eq_left, hk s hs]
      simp only [Spot.onward, ht, ih hsound (s :: passed) hn, hpassed, hsuffix]
      rw [or_left_comm, or_assoc]

theorem isSome_timesAny_iff {m : Mode} (hdot : m.dotAll = true)
    (hk : ∀ t : Spot, t.IsSound → ((k t).isSome = true ↔ ends t.place.after)) (hs : s.IsSound) :
    ((Node.times .greedy 0 none (.single .any)).way m k s).isSome = true ↔
      ∃ rest, rest <:+ s.place.after ∧ ends rest := by
  have htest : ∀ c, Single.any.holds m c = true := fun c ↦ by rw [Single.holds, hdot, Bool.true_or]
  have honward := isSome_findSome?_onward_iff hk htest hs []
  rw [Node.way, Way.timesSingle]
  simpa [Spot.after?] using honward

end Ways

end Regex

namespace Like

open Regex (Flag Mode Node Spot Pattern)

variable {same : Char → Char → Prop} {m : Mode}

/-- The row of a pattern matches what the pattern covers. -/
theorem isSome_row_iff (hdot : m.dotAll = true) (hlines : m.multiline = false)
    (hsame : ∀ c d : Char, m.same c.toNat d.toNat = true ↔ same c d) (pattern : List Char)
    {s : Spot} (hs : s.IsSound) :
    (Node.wayOfRow m (pattern.map node ++ [.anchor .lineEnd]) some s).isSome = true ↔
      CoversBody same pattern s.place.after := by
  induction pattern generalizing s with
  | nil =>
      rw [coversBody_nil_iff]
      simp [Node.wayOfRow, Node.way, Regex.Anchor.holds, hlines]
  | cons c pattern ih =>
      rw [List.map_cons, List.cons_append, Node.wayOfRow, node]
      by_cases hrun : c = '%'
      · subst hrun
        rw [if_pos rfl, coversBody_run_iff]
        exact Regex.isSome_timesAny_iff hdot (fun t ht ↦ ih ht) hs
      · rw [if_neg hrun, coversBody_cons_iff hrun]
        by_cases hone : c = '_'
        · subst hone
          rw [if_pos rfl, Regex.isSome_single_iff (fun t ht ↦ ih ht) hs]
          simp [Regex.Single.holds, hdot]
        · rw [if_neg hone, Regex.isSome_single_iff (fun t ht ↦ ih ht) hs]
          simp only [Regex.Single.holds, hsame, hone, false_or]

/-- A pattern matches a text from the front as the regular expression that it is written as does. -/
theorem matchesFront_iff {flags : List Flag} (hdot : (Mode.ofFlags flags).dotAll = true)
    (hlines : (Mode.ofFlags flags).multiline = false)
    (hsame : ∀ c d : Char, (Mode.ofFlags flags).same c.toNat d.toNat = true ↔ same c d)
    (pattern text : String) :
    (Pattern.mk (.ofFlags flags) 0 (.ofList (row pattern.toList)) none).matchesFront text = true ↔
      CoversBody same pattern.toList text.toList := by
  have hrow := isSome_row_iff hdot hlines hsame pattern.toList
    (s := ⟨⟨[], text.toList, text.toList.length⟩, []⟩) rfl
  rw [Pattern.matchesFront, Pattern.matchesAt, Node.way_ofList, row, Node.wayOfRow]
  simpa [Pattern.admits, Node.way, Regex.Anchor.holds] using hrow

/-- The flags in which a pattern is matched. -/
def flags (ignoreCase : Bool) : List Flag :=
  if ignoreCase then [.ignoreCase, .dotAll] else [.dotAll]

/-- Whether a character of a pattern stands for one of a text. -/
def alike (ignoreCase : Bool) : Char → Char → Bool :=
  if ignoreCase then Text.sameLetter else (· == ·)

theorem same_flags (ignoreCase : Bool) (c d : Char) :
    (Mode.ofFlags (flags ignoreCase)).same c.toNat d.toNat = alike ignoreCase c d := by
  cases ignoreCase with
  | false =>
      rw [Bool.eq_iff_iff]
      simp [flags, alike, Mode.same, Mode.ofFlags, Char.toNat_inj]
  | true => rfl

/-- What a pattern finds in a text, when it is written as a regular expression and matched in some
flags from the front. -/
def Finds (flags : List Flag) (pattern text : String) (found : Bool) : Prop :=
  ∃ expression, Regex.read flags (regexText pattern) = .ok expression ∧
    expression.matchesFront text = found

theorem finds_matchesBy (ignoreCase : Bool) (pattern text : String) :
    Finds (flags ignoreCase) pattern text
      (matchesBy (alike ignoreCase) pattern.toList text.toList) := by
  have hread : Regex.read (flags ignoreCase) (regexText pattern) =
      .ok ⟨.ofFlags (flags ignoreCase), 0, .ofList (row pattern.toList), none⟩ := by
    cases ignoreCase <;> exact read_regexText rfl rfl rfl pattern
  have hdot : (Mode.ofFlags (flags ignoreCase)).dotAll = true := by cases ignoreCase <;> rfl
  have hlines : (Mode.ofFlags (flags ignoreCase)).multiline = false := by cases ignoreCase <;> rfl
  have hsame : ∀ c d : Char, (Mode.ofFlags (flags ignoreCase)).same c.toNat d.toNat = true ↔
      alike ignoreCase c d = true := fun c d ↦ by rw [same_flags]
  have hfront := matchesFront_iff hdot hlines hsame pattern text
  have hmatches : matchesBy (alike ignoreCase) pattern.toList text.toList = true ↔
      CoversBody (alike ignoreCase · · = true) pattern.toList text.toList :=
    matchesBy_iff fun _ _ ↦ Iff.rfl
  exact ⟨_, hread, Bool.eq_iff_iff.mpr (hfront.trans hmatches.symm)⟩

end Like

namespace Memory

section Texts

variable {ignoreCase : Bool} {pattern field : Value}

theorem evaluate_like (hfield : field.isNull = false) :
    evaluate .full (.like pattern) field = liked false pattern field :=
  unlessNull_of_isNull_eq_false hfield _

theorem evaluate_ilike (hfield : field.isNull = false) :
    evaluate .full (.ilike pattern) field = liked true pattern field :=
  unlessNull_of_isNull_eq_false hfield _

/-- A pattern is matched against the text of a value. -/
theorem liked_of_text? {word text : String} (hpattern : pattern.text? = some word)
    (htext : field.text? = some text) : liked ignoreCase pattern field =
      .ok (Like.matchesBy (Like.alike ignoreCase) word.toList text.toList) := by
  rw [liked, onTexts, hpattern, htext]
  cases ignoreCase <;> rfl

theorem liked_of_text?_eq_none (h : pattern.text? = none ∨ field.text? = none) :
    liked ignoreCase pattern field = .error .unwrittenNumber := by
  rw [liked, onTexts]
  rcases h with h | h
  · rw [h]
  · rw [h]
    cases pattern.text? <;> rfl

end Texts

/-- A pattern is evaluated on a value that is there as the regular expression that it is written as
is matched from the front of the value's text.  Both can always be done, and they find what the
pattern covers from the first character to the last, and besides what it covers but for a line break
at the end.  That makes a difference only for a text that ends in a line break and a pattern that
does not end in `%`.  Without a text on either side there is nothing to match. -/
theorem like_covers_up_to_final_break {pattern field : Value} (hfield : field.isNull = false) :
    (∀ word text : String, pattern.text? = some word → field.text? = some text →
      ∃ (expression : Regex.Pattern) (found : Bool),
        Regex.read [.dotAll] (Like.regexText word) = .ok expression ∧
        expression.matchesFront text = found ∧
        evaluate Registry.full (.like pattern) field = .ok found ∧
        (found = true ↔ Like.Covers (· = ·) word.toList text.toList ∨
          ∃ cut, text.toList = cut ++ ['\n'] ∧ Like.Covers (· = ·) word.toList cut) ∧
        ((text.toList.getLast? = some '\n' → word.toList.getLast? = some '%') →
          (found = true ↔ Like.Covers (· = ·) word.toList text.toList))) ∧
    (pattern.text? = none ∨ field.text? = none →
      evaluate Registry.full (.like pattern) field = .error .unwrittenNumber) := by
  rw [evaluate_like hfield]
  refine ⟨fun word text hword htext ↦ ?_, liked_of_text?_eq_none⟩
  have hread : Regex.read [.dotAll] (Like.regexText word) =
      .ok ⟨.ofFlags [.dotAll], 0, .ofList (Like.row word.toList), none⟩ :=
    Like.read_regexText rfl rfl rfl _
  have hsame : ∀ c d : Char, (Regex.Mode.ofFlags [.dotAll]).same c.toNat d.toNat = true ↔
      c = d := fun c d ↦ beq_iff_eq.trans Char.toNat_inj
  have hfront := Like.matchesFront_iff rfl rfl hsame word text
  have hmatches : Like.matchesBy (Like.alike false) word.toList text.toList = true ↔
      Like.CoversBody (· = ·) word.toList text.toList :=
    Like.matchesBy_iff fun c d ↦ beq_iff_eq
  refine ⟨_, _, hread, ?_, liked_of_text? hword htext, hmatches.trans Like.coversBody_iff,
    fun hlast ↦ ?_⟩
  · exact Bool.eq_iff_iff.mpr (hfront.trans hmatches.symm)
  · rw [hmatches]
    exact ⟨fun h ↦ h.covers hlast, fun h ↦ Like.coversBody_iff.mpr (Or.inl h)⟩

/-- A point and a backslash stand for themselves, and `%` for a line break as well. -/
theorem like_covers_up_to_final_break_wildcards :
    (Value.text "a\n.\\b").isNull = false ∧
    ∃ expression, Regex.read [.dotAll] "^a.*\\.\\\\.$" = .ok expression ∧
      expression.matchesFront "a\n.\\b" = true ∧
      Like.Covers (· = ·) "a%.\\_".toList "a\n.\\b".toList := by
  refine ⟨rfl, ?_⟩
  obtain ⟨expression, found, hread, hfront, hevaluate, -, hexact⟩ :=
    (@like_covers_up_to_final_break (.text "a%.\\_") (.text "a\n.\\b") rfl).1 _ _ rfl rfl
  have htrue : evaluate Registry.full (.like (.text "a%.\\_")) (.text "a\n.\\b") = .ok true := rfl
  obtain rfl : found = true := Except.ok.inj (hevaluate.symm.trans htrue)
  exact ⟨expression, hread, hfront, (hexact (absurd · (by decide))).mp rfl⟩

/-- A text that ends in a line break passes a pattern that does not cover it. -/
theorem like_found_without_cover :
    evaluate Registry.full (.like (.text "abc")) (.text "abc\n") = .ok true ∧
    ¬Like.Covers (· = ·) "abc".toList "abc\n".toList := by
  refine ⟨rfl, fun h ↦ ?_⟩
  have hcovers : Like.covers (· == ·) "abc".toList "abc\n".toList = true :=
    (Like.covers_iff fun _ _ ↦ beq_iff_eq).mpr h
  exact absurd hcovers (by decide)

end Memory

end Criteria
