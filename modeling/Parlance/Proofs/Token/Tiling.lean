import Parlance.Proofs.Token.Found
/-!
The tokens of a pattern tile it. Put side by side, their sources are the pattern, and every token
that knows its place stands there (ofPattern_tiles). Literal text is never empty and never next to
literal text, so the tiling is as coarse as it can be.
-/

namespace Parlance.Token

open Brace

/-- A token at an opening brace stands for the characters that it takes. -/
theorem exact_find : Piece.Exact find source := by
  intro pos t token n h
  cases found_of_find h with
  | unbalanced hclose => exact ⟨[], t, rfl, rfl, rfl⟩
  | malformed ht hclose hread hname hresembles => exact ⟨[], t, rfl, rfl, rfl⟩
  | @construct body rest _ _ ht hclose hread =>
    exact ⟨body ++ ['}'], rest, by rw [ht, List.append_assoc]; rfl, rfl, by simp⟩
  | @placeholder name rest ht hclose hread hname hword =>
    exact ⟨name ++ ['}'], rest, by rw [ht, List.append_assoc]; rfl, rfl, by simp⟩

/-- It knows its place, and is no literal text. -/
theorem span?_of_find {pos n : Nat} {t : Text} {token : Token}
    (h : find pos (mark ('{' :: t)) = some (token, n)) :
    token.isText = false ∧ token.span? = some (Span.ofLength pos token.source.length) := by
  cases found_of_find h with
  | unbalanced hclose => exact ⟨rfl, rfl⟩
  | malformed ht hclose hread hname hresembles => exact ⟨rfl, rfl⟩
  | construct ht hclose hread => exact ⟨rfl, by simp [span?, source]⟩
  | placeholder ht hclose hread hname hword => exact ⟨rfl, by simp [span?, source]⟩

theorem source_ofPiece (piece : Piece Token) : (ofPiece piece).source = piece.text source := by
  cases piece <;> rfl

theorem flatMap_source_ofPiece (pieces : List (Piece Token)) :
    (pieces.map ofPiece).flatMap source = pieces.flatMap (Piece.text source) := by
  rw [List.flatMap_map]
  exact congrArg (pieces.flatMap ·) (funext source_ofPiece)

/-- The finds in a pattern are those that the scan made, each where its text starts. -/
theorem find_of_pieces_eq {pattern : Text} {before after : List (Piece Token)} {token : Token}
    (h : Piece.cut find 0 (mark pattern) = before ++ .found token :: after) :
    ∃ rest n, find (before.flatMap (Piece.text source)).length (mark ('{' :: rest)) =
      some (token, n) := by
  obtain ⟨rest, n, -, hfind⟩ := Piece.located_cut exact_find 0 pattern before token after h
  exact ⟨rest, n, Nat.zero_add (before.flatMap (Piece.text source)).length ▸ hfind⟩

theorem isText_ofPiece {pattern : Text} {piece : Piece Token}
    (h : piece ∈ Piece.cut find 0 (mark pattern)) : (ofPiece piece).isText = piece.isLiteral := by
  cases piece with
  | literal t => rfl
  | found token =>
    obtain ⟨before, after, hpieces⟩ := List.append_of_mem h
    obtain ⟨rest, n, hfind⟩ := find_of_pieces_eq hpieces
    exact (span?_of_find hfind).1

theorem flatMap_source_ofPattern (pattern : Text) :
    (ofPattern pattern).flatMap source = pattern := by
  rw [ofPattern, flatMap_source_ofPiece]
  exact Piece.flatMap_cut exact_find 0 pattern

/-- A token that is no literal text knows its place: it stands after what the tokens before it
stand for. -/
theorem span?_of_ofPattern_eq {pattern : Text} {before after : List Token} {token : Token}
    (h : ofPattern pattern = before ++ token :: after) (htext : token.isText = false) :
    token.span? = some (Span.ofLength (before.flatMap source).length token.source.length) := by
  obtain ⟨first, last, hpieces, rfl, hlast⟩ := List.map_eq_append_iff.1 h
  obtain ⟨piece, rest, rfl, hpiece, -⟩ := List.map_eq_cons_iff.1 hlast
  cases piece with
  | literal t => exact absurd htext (by simp [← hpiece, ofPiece, isText])
  | found found =>
    obtain ⟨tail, n, hfind⟩ := find_of_pieces_eq hpieces
    rw [← hpiece, ofPiece, flatMap_source_ofPiece]
    exact (span?_of_find hfind).2

theorem ne_nil_of_text_mem {pattern value : Text} (h : .text value ∈ ofPattern pattern) :
    value ≠ [] := by
  obtain ⟨piece, hmem, hpiece⟩ := List.mem_map.1 h
  have hliteral := isText_ofPiece hmem
  rw [hpiece] at hliteral
  cases piece with
  | literal t =>
    rw [ofPiece, text.injEq] at hpiece
    exact hpiece ▸ (Piece.separated_cut 0 (mark pattern)).nonempty t hmem
  | found token => exact absurd hliteral (by simp [isText, Piece.isLiteral])

theorem isChain_ofPattern (pattern : Text) :
    (ofPattern pattern).IsChain fun a b => ¬(a.isText ∧ b.isText) := by
  have happart : (Piece.cut find 0 (mark pattern)).IsChain _ :=
    (Piece.separated_cut 0 (mark pattern)).apart
  rw [ofPattern, List.isChain_map]
  apply happart.imp_of_mem_imp
  intro a b ha hb hab
  rw [isText_ofPiece ha, isText_ofPiece hb]
  exact hab

/-- The tokens of a pattern tile it. -/
theorem ofPattern_tiles (pattern : Text) :
    (ofPattern pattern).flatMap source = pattern ∧
    (∀ before token after, ofPattern pattern = before ++ token :: after →
      token.isText = false →
      token.span? = some (Span.ofLength (before.flatMap source).length token.source.length)) ∧
    (∀ value, .text value ∈ ofPattern pattern → value ≠ []) ∧
    (ofPattern pattern).IsChain fun a b => ¬(a.isText ∧ b.isText) := by
  refine ⟨flatMap_source_ofPattern pattern, ?_, ?_, isChain_ofPattern pattern⟩
  · intro before token after h htext
    exact span?_of_ofPattern_eq h htext
  · intro value h
    exact ne_nil_of_text_mem h

end Parlance.Token
