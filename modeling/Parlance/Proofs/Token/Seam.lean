import Parlance.Proofs.Brace.Seam
import Parlance.Proofs.Token.Tiling
/-!
The tokens at a seam. Behind a pattern in which every opening brace closes, a second pattern has the
tokens that it has alone, further on by the length of the first (ofPattern_append).
-/

namespace Parlance

open Brace

/-- The range that lies so many characters further on. -/
def Span.moved (k : Nat) (s : Span) : Span :=
  ⟨s.start + k, s.stop + k, Nat.add_le_add_right s.start_le_stop k⟩

theorem Span.ofLength_add (k start length : Nat) :
    ofLength (start + k) length = (ofLength start length).moved k := by
  simp only [ofLength, moved, Nat.add_right_comm]

namespace Token

/-- The token so many characters further on. A wrong brace says its position in its diagnosis. -/
def moved (k : Nat) : Token → Token
  | .text value => .text value
  | .placeholder name span => .placeholder name (span.moved k)
  | .construct c => .construct { c with span := c.span.moved k }
  | .junk problem position => .junk problem (position + k)

/-- Tokens side by side; literal text at the seam is one token. -/
def joined : List Token → List Token → List Token
  | [], others => others
  | [.text t], .text u :: others => .text (t ++ u) :: others
  | token :: tokens, others => token :: joined tokens others

theorem isText_moved (k : Nat) (token : Token) : (token.moved k).isText = token.isText := by
  cases token <;> rfl

theorem confined_find : Piece.Confined find := by
  intro pos ms others n hreach hlength
  have hhead : (ms ++ others).head? = ms.head? := by
    cases ms with
    | nil => cases hreach
    | cons m ms => rfl
  rw [find, find, hhead, hreach]
  simp only [List.take_append_of_le_length hlength]

/-- What is found further on is the same further on. -/
theorem find_add (k pos : Nat) (ms : Marks) :
    find (pos + k) ms = (find pos ms).map fun (token, n) => (token.moved k, n) := by
  rw [find, find]
  cases hreach : ms.head?.bind Mark.reach with
  | none => rfl
  | some n =>
    cases hinner : Construct.interior? (ms.take n) with
    | none => simp only [hinner, Option.bind_eq_bind, Option.bind_none, Option.map_none]
    | some inner =>
      simp only [hinner, Option.bind_eq_bind, Option.bind_some, Span.ofLength_add]
      cases Construct.ofInterior? inner with
      | some said => rfl
      | none =>
        cases name? inner with
        | some name => rfl
        | none => cases Construct.resembles inner <;> rfl

/-- Pieces in which no find is literal text. -/
def TellsText (pieces : List (Piece Token)) : Prop :=
  ∀ piece ∈ pieces, (ofPiece piece).isText = piece.isLiteral

theorem eq_literal_of_ofPiece {piece : Piece Token} {t : Text}
    (hpiece : (ofPiece piece).isText = piece.isLiteral) (h : ofPiece piece = .text t) :
    piece = .literal t := by
  cases piece with
  | literal u => exact congrArg Piece.literal (Token.text.inj h)
  | found token =>
    rw [h] at hpiece
    cases hpiece

theorem map_ofPiece_glue {pieces others : List (Piece Token)} (hpieces : TellsText pieces)
    (hothers : TellsText others) :
    (Piece.glue pieces others).map ofPiece =
      joined (pieces.map ofPiece) (others.map ofPiece) := by
  fun_induction Piece.glue pieces others with
  | case1 others => rfl
  | case2 t u others => rfl
  | case3 piece pieces others hseam ih =>
    have hrest : TellsText pieces := fun piece hpiece =>
      hpieces piece (List.mem_cons_of_mem _ hpiece)
    rw [List.map_cons, ih hrest hothers, List.map_cons, joined]
    -- literal tokens on both sides of a seam come from literal pieces
    intro t u _ hother htoken hnil
    obtain ⟨other, _, rfl, hu, -⟩ := List.map_eq_cons_iff.1 hother
    have hpiece := eq_literal_of_ofPiece (hpieces piece List.mem_cons_self) htoken
    have hliteral := eq_literal_of_ofPiece (hothers other List.mem_cons_self) hu
    exact hseam t u _ (by rw [hliteral]) hpiece (List.map_eq_nil_iff.1 hnil)

theorem map_ofPiece_map (k : Nat) (pieces : List (Piece Token)) :
    (pieces.map (Piece.map (moved k))).map ofPiece = (pieces.map ofPiece).map (moved k) := by
  rw [List.map_map, List.map_map]
  apply List.map_congr_left
  intro piece _
  cases piece <;> rfl

/-- Where every opening brace closes, no token says of one that it does not. -/
theorem not_unbalanced_of_closed {p : Text} (hp : Closed p) (position : Nat) :
    .junk .unbalanced position ∉ ofPattern p := by
  intro h
  obtain ⟨piece, hmem, hpiece⟩ := List.mem_map.1 h
  cases piece with
  | literal t => cases hpiece
  | found token =>
    obtain rfl : token = .junk .unbalanced position := hpiece
    obtain ⟨before, after, hpieces⟩ := List.append_of_mem hmem
    obtain ⟨rest, n, rfl, hfind⟩ := Piece.located_cut exact_find 0 p _ _ _ hpieces
    obtain ⟨stop, hstop, -⟩ := hp.of_append.exists_close?
    cases found_of_find hfind with
    | unbalanced hclose =>
      rw [hclose] at hstop
      cases hstop

/-- A pattern in which every opening brace closes and a pattern behind it have their own tokens. -/
theorem ofPattern_append {p : Text} (hp : Closed p) (q : Text) :
    ofPattern (p ++ q) = joined (ofPattern p) ((ofPattern q).map (moved p.length)) := by
  have hcut := Piece.cut_append exact_find confined_find hp q 0
  rw [Piece.cut_add (find_add p.length) 0] at hcut
  have htext : TellsText (Piece.cut find 0 (mark p)) := fun piece => isText_ofPiece
  have htextq : TellsText ((Piece.cut find 0 (mark q)).map (Piece.map (moved p.length))) := by
    intro piece hpiece
    obtain ⟨own, hown, rfl⟩ := List.mem_map.1 hpiece
    have hliteral := isText_ofPiece hown
    cases own with
    | literal t => rfl
    | found token => exact (isText_moved p.length token).trans hliteral
  rw [ofPattern, hcut, map_ofPiece_glue htext htextq, map_ofPiece_map]
  rfl

end Token

end Parlance
