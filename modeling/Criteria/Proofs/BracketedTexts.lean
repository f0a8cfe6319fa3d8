import Criteria.Proofs.Supplies
import Criteria.Sql.Expression

/-!
# Texts in brackets

A text that is put in brackets behind a NOT keeps its placeholders and its parameters, whatever it
is.  Pieces of text that spell the same letters, however they are cut, make the same statement.
-/

namespace Criteria.Sql

/-! ## Letters -/

/-- A piece cut into letters, if it is text. -/
def Piece.letters : Piece → List Piece
  | .text s => s.toList.map fun c ↦ .text (toString c)
  | piece => [piece]

/-- Pieces that are the same up to how texts are cut. -/
def SameText (ps qs : List Piece) : Prop := ps.flatMap Piece.letters = qs.flatMap Piece.letters

namespace SameText

variable {ps qs ps' qs' : List Piece}

theorem refl (ps : List Piece) : SameText ps ps := rfl

theorem append (h : SameText ps qs) (h' : SameText ps' qs') :
    SameText (ps ++ ps') (qs ++ qs') := by
  rw [SameText, List.flatMap_append, List.flatMap_append, h, h']

theorem cons (piece : Piece) (h : SameText ps qs) : SameText (piece :: ps) (piece :: qs) :=
  append (refl [piece]) h

end SameText

theorem letters_eq_nil_iff {piece : Piece} : piece.letters = [] ↔ piece.isWritten = false := by
  cases piece with
  | text s => simp [Piece.letters, Piece.isWritten]
  | _ => simp [Piece.letters, Piece.isWritten]

theorem SameText.isWritten {ps qs : List Piece} (h : SameText ps qs)
    (hwritten : ps.any Piece.isWritten = true) : qs.any Piece.isWritten = true := by
  by_contra hnone
  have hqs : qs.flatMap Piece.letters = [] := by
    rw [List.flatMap_eq_nil_iff]
    intro piece hpiece
    rw [letters_eq_nil_iff]
    exact Bool.eq_false_iff.mpr fun hsome ↦ hnone (List.any_eq_true.mpr ⟨piece, hpiece, hsome⟩)
  obtain ⟨piece, hpiece, hsome⟩ := List.any_eq_true.mp hwritten
  have hps : piece.letters = [] := List.flatMap_eq_nil_iff.mp (h.trans hqs) piece hpiece
  rw [letters_eq_nil_iff.mp hps] at hsome
  cases hsome

theorem ofPieces_map_text (before : List String) (cs : List Char) (rest : List Piece) :
    Part.ofPieces before (cs.map (fun c ↦ .text (toString c)) ++ rest) =
      cs.map (fun c ↦ Part.text (toString c)) ++ Part.ofPieces before rest := by
  induction cs with
  | nil => rfl
  | cons c cs ih => rw [List.map_cons, List.cons_append, Part.ofPieces, ih]; rfl

theorem parts_cons {parts others : List Part} (part : Part)
    (h : String.join (parts.map Part.sql) = String.join (others.map Part.sql) ∧
      parts.filterMap Part.parameter? = others.filterMap Part.parameter?) :
    String.join ((part :: parts).map Part.sql) = String.join ((part :: others).map Part.sql) ∧
      (part :: parts).filterMap Part.parameter? = (part :: others).filterMap Part.parameter? := by
  rw [List.map_cons, List.map_cons, String.join_cons, String.join_cons, h.1, List.filterMap_cons,
    List.filterMap_cons, h.2]
  exact ⟨rfl, rfl⟩

theorem join_map_toString (s : String) : String.join (s.toList.map fun c ↦ toString c) = s := by
  apply String.toList_injective
  have hsingle : ∀ c : Char, (toString c).toList = [c] := fun c ↦ String.toList_singleton c
  simp [String.toList_join, List.flatMap_map, hsingle]

/-- Cutting texts into letters changes neither the text of a statement nor its parameters. -/
theorem parts_letters (ps : List Piece) (before : List String) :
    String.join ((Part.ofPieces before (ps.flatMap Piece.letters)).map Part.sql) =
        String.join ((Part.ofPieces before ps).map Part.sql) ∧
      (Part.ofPieces before (ps.flatMap Piece.letters)).filterMap Part.parameter? =
        (Part.ofPieces before ps).filterMap Part.parameter? := by
  induction ps generalizing before with
  | nil => exact ⟨rfl, rfl⟩
  | cons piece rest ih =>
      rw [List.flatMap_cons]
      cases piece with
      | text s =>
          have hsql : (s.toList.map fun c ↦ Part.text (toString c)).map Part.sql =
              s.toList.map fun c ↦ toString c := List.map_map
          have hnone : (s.toList.map fun c ↦ Part.text (toString c)).filterMap Part.parameter? =
              [] := by
            simp [List.filterMap_eq_nil_iff, Part.parameter?]
          rw [Piece.letters, ofPieces_map_text, Part.ofPieces, List.map_append,
            String.join_append, hsql, join_map_toString, List.map_cons, String.join_cons,
            List.filterMap_append, hnone, (ih before).1, (ih before).2]
          exact ⟨rfl, rfl⟩
      | named name bind => exact parts_cons _ (ih before)
      | unnamed base exclusive bind => exact parts_cons _ (ih (base :: before))
      | again base => exact parts_cons _ (ih before)

/-- Pieces that spell the same make the same statement. -/
theorem SameText.ofPieces_eq {ps qs : List Piece} (h : SameText ps qs) :
    Statement.ofPieces ps = Statement.ofPieces qs := by
  have hletters : ∀ pieces : List Piece,
      Statement.ofPieces (pieces.flatMap Piece.letters) = Statement.ofPieces pieces := by
    intro pieces
    obtain ⟨hsql, hparameters⟩ := parts_letters pieces []
    simp only [Statement.ofPieces, hsql, hparameters]
  rw [← hletters ps, h, hletters]

/-! ## Placeholders of a text in brackets -/

theorem isWord_closing : Text.isWord ')' = false := by decide

theorem mayPrecede_opening : mayPrecede (some '(') = mayPrecede none := by decide

theorem head?_dropWhile_isWord_closing (cs : List Char) :
    ((cs ++ [')']).dropWhile Text.isWord).head? = some ':' ↔
      (cs.dropWhile Text.isWord).head? = some ':' := by
  induction cs with
  | nil => simp [isWord_closing]
  | cons c rest ih =>
      rw [List.cons_append, List.dropWhile_cons, List.dropWhile_cons]
      split
      · exact ih
      · rfl

theorem takeWhile_isWord_closing (cs : List Char) :
    (cs ++ [')']).takeWhile Text.isWord = cs.takeWhile Text.isWord := by
  induction cs with
  | nil => simp [isWord_closing]
  | cons c rest ih => rw [List.cons_append, List.takeWhile_cons, List.takeWhile_cons, ih]

theorem drop_takeWhile (cs : List Char) :
    cs.drop (cs.takeWhile Text.isWord).length = cs.dropWhile Text.isWord := by
  induction cs with
  | nil => rfl
  | cons c rest ih =>
      rw [List.takeWhile_cons, List.dropWhile_cons]
      split
      · exact ih
      · rfl

theorem nameAfterColon_closing (cs : List Char) :
    nameAfterColon (cs ++ [')']) = nameAfterColon cs := by
  have hdrop := drop_takeWhile (cs ++ [')'])
  rw [takeWhile_isWord_closing] at hdrop
  simp only [nameAfterColon, takeWhile_isWord_closing, hdrop, drop_takeWhile,
    head?_dropWhile_isWord_closing]

theorem namesFrom_closing (before : Option Char) (cs : List Char) :
    namesFrom before (cs ++ [')']) = namesFrom before cs := by
  induction cs generalizing before with
  | nil => simp [namesFrom]
  | cons c rest ih => simp only [List.cons_append, namesFrom, nameAfterColon_closing, ih]

theorem namesFrom_opening (cs : List Char) :
    namesFrom (some '(') cs = namesFrom none cs := by
  cases cs with
  | nil => rfl
  | cons c rest => simp only [namesFrom, mayPrecede_opening]

/-- A text in brackets behind a NOT. -/
def bracketedNot (text : String) : String := "NOT (" ++ text ++ ")"

theorem toList_bracketedNot (text : String) :
    (bracketedNot text).toList = "NOT (".toList ++ (text.toList ++ [')']) := by
  rw [bracketedNot, String.toList_append, String.toList_append, List.append_assoc]
  rfl

theorem placeholderNames_bracketedNot (text : String) :
    placeholderNames (bracketedNot text) = placeholderNames text := by
  have hlead : ∀ cs, namesFrom none ("NOT (".toList ++ cs) = namesFrom (some '(') cs := by
    intro cs
    simp [namesFrom]
  rw [placeholderNames, toList_bracketedNot, hlead, namesFrom_opening, namesFrom_closing,
    placeholderNames]

namespace BoundText

/-! ## Pieces of a text in brackets -/

theorem isEscaped_closing (cs : List Char) : isEscaped (cs ++ [')']) = isEscaped cs := by
  cases cs with
  | nil => rfl
  | cons c rest =>
      by_cases hcolon : c = ':'
      · subst hcolon
        rw [List.cons_append, isEscaped, isEscaped, Bool.eq_iff_iff, bne_iff_ne, bne_iff_ne, ne_eq,
          head?_dropWhile_isWord_closing]
      · have hnone : ∀ others, isEscaped (c :: others) = false := by
          intro others
          rw [isEscaped]
          rintro _ ⟨⟩
          exact hcolon rfl
        rw [List.cons_append, hnone, hnone]

/-- A bracket that follows a text ends the placeholder that stands last in it, and no more. -/
theorem piecesFrom_closing (binds : List (String × Supply)) (cs : List Char) :
    (∀ before, piecesFrom binds before (cs ++ [')']) =
      piecesFrom binds before cs ++ [.text ")"]) ∧
    ∀ name, nameFrom binds name (cs ++ [')']) = nameFrom binds name cs ++ [.text ")"] := by
  induction cs with
  | nil =>
      constructor
      · intro before
        simp [piecesFrom]
      · intro name
        simp [nameFrom, piecesFrom, isWord_closing]
  | cons c rest ih =>
      obtain ⟨hpieces, hname⟩ := ih
      constructor
      · intro before
        simp only [List.cons_append, piecesFrom, isEscaped_closing, hpieces, hname]
        split
        · rfl
        · split <;> rfl
      · intro name
        simp only [List.cons_append, nameFrom, isEscaped_closing, hpieces, hname]
        split
        · rfl
        · split <;> rfl

theorem piecesFrom_opening (binds : List (String × Supply)) (cs : List Char) :
    piecesFrom binds (some '(') cs = piecesFrom binds none cs := by
  cases cs with
  | nil => rfl
  | cons c rest => simp only [piecesFrom, mayPrecede_opening]

theorem sharing_append (ps : List Piece) (s : String) (seen : Bool) :
    sharing seen (ps ++ [.text s]) = sharing seen ps ++ [.text s] := by
  induction ps generalizing seen with
  | nil => cases seen <;> rfl
  | cons piece rest ih =>
      cases piece with
      | unnamed base exclusive bind => cases seen <;> simp only [List.cons_append, sharing, ih]
      | _ => simp only [List.cons_append, sharing, ih]

theorem sharing_map_text (cs : List Char) (ps : List Piece) (seen : Bool) :
    sharing seen (cs.map (fun c ↦ .text (toString c)) ++ ps) =
      cs.map (fun c ↦ .text (toString c)) ++ sharing seen ps := by
  induction cs with
  | nil => rfl
  | cons c rest ih => simp only [List.map_cons, List.cons_append, sharing, ih]

theorem pieces_bracketedNot (text : String) (binds : List (String × Supply)) :
    (BoundText.mk (bracketedNot text) binds).pieces =
      "NOT (".toList.map (fun c ↦ .text (toString c)) ++
        ((BoundText.mk text binds).pieces ++ [.text ")"]) := by
  have hlead : ∀ cs, piecesFrom binds none ("NOT (".toList ++ cs) =
      "NOT (".toList.map (fun c ↦ .text (toString c)) ++ piecesFrom binds (some '(') cs := by
    intro cs
    simp [piecesFrom]
  rw [pieces, toList_bracketedNot, hlead, piecesFrom_opening, (piecesFrom_closing binds _).1,
    sharing_map_text, sharing_append, pieces]

/-- A text that takes some parameters takes them in brackets too, and its pieces are those of the
text in brackets. -/
theorem ofTemplate_bracketedNot {text : String} {parameters : Parameters} {t : BoundText}
    (h : ofTemplate text parameters = .ok t) : ∃ t',
      ofTemplate (bracketedNot text) parameters = .ok t' ∧
      SameText t'.pieces (.text "NOT (" :: (t.pieces ++ [.text ")"])) := by
  rw [ofTemplate] at h ⊢
  cases hreserved : reservedNames.find? fun r ↦ parameters.any fun p ↦ p.1 == r.1 with
  | some r => simp [hreserved] at h
  | none =>
      simp only [hreserved] at h ⊢
      obtain ⟨hasks, rfl⟩ := supplyAll_eq_ok_iff.mp h
      have hbinds : (bare (bracketedNot text)).binds = (bare text).binds := by
        simp only [bare, placeholderNames_bracketedNot]
      have hasks' : ∀ s ∈ parameters.map fun p ↦ (p.1, (⟨⟨p.2, false⟩, true⟩ : Supply)),
          (bare (bracketedNot text)).asksFor s.1 = true := by
        intro s hs
        rw [asksFor, hbinds]
        exact hasks s hs
      refine ⟨_, supplyAll_eq_ok_iff.mpr ⟨hasks', rfl⟩, ?_⟩
      rw [hbinds]
      have hpieces := pieces_bracketedNot text ((bare text).binds.map (settle
        (parameters.map fun p ↦ (p.1, (⟨⟨p.2, false⟩, true⟩ : Supply)))))
      have hlead : SameText ("NOT (".toList.map fun c ↦ .text (toString c)) [.text "NOT ("] := rfl
      exact hpieces ▸ hlead.append (.refl _)

end BoundText

end Criteria.Sql
