import Parlance.Proofs.Protection.RoundTrip
import Parlance.Proofs.Text.Names
import Parlance.Proofs.Token.Tiling
/-!
Protecting and reading agree on what a placeholder is: under the default kinds a text has the
placeholders that are among its tokens (protect_default). Both scan the text for themselves. They
go different ways only behind a group of word characters that is no name by position and no
identifier; reading takes it as a token, protection looks into it and finds no brace.
-/

namespace Parlance

open Brace Placeholder

namespace Construct.Kind

/-- The name of the default kind of placeholder that holds the constructs of a kind. -/
def placeholderName : Kind → Text
  | .choice .plural => "ICU_Plural"
  | .choice .select => "ICU_Select"
  | .choice .ordinal => "ICU_Ordinal"
  | .field .date => "ICU_Date"
  | .field .time => "ICU_Time"
  | .field .number => "ICU_Number"

end Construct.Kind

namespace Token

/-- The default kind of placeholder that a token is of: every construct has one, and so have names
by position and identifiers. -/
def defaultKind? : Token → Option Placeholder.Kind
  | .construct c => some (.ofConstruct c.kind.placeholderName c.kind)
  | .placeholder name _ =>
    if isPositional name then some ⟨"Indexed", .spelled isIndexed, false⟩
    else if isIdentifier name then some ⟨"Named", .spelled isNamed, false⟩
    else none
  | .text _ | .junk _ _ => none

/-- The text of tokens in which those of a default kind are numbered, from an index on. -/
def numbered (index : Nat) : List Token → Text
  | [] => []
  | token :: rest =>
    match token.defaultKind? with
    | some _ => Protection.token index ++ numbered (index + 1) rest
    | none => token.source ++ numbered index rest

end Token

namespace Protection

/-- The placeholder that a token is under the default kinds. -/
def Placed.ofToken? (token : Token) : Option Placed :=
  token.defaultKind?.map (⟨token.source, ·⟩)

section Kinds

/-- Among the default kinds a construct is of the kind named for it, and any other group is looked
at by its spelling. -/
theorem ofGroup?_default (group : Group) :
    Kinds.default.ofGroup? group =
      match group.construct? with
      | some kind => some (.ofConstruct kind.placeholderName kind)
      | none =>
        if isIndexed group.text then some ⟨"Indexed", .spelled isIndexed, false⟩
        else if isNamed group.text then some ⟨"Named", .spelled isNamed, false⟩
        else none := by
  obtain ⟨construct?, text⟩ := group
  rw [Kinds.ofGroup?, inOrder_default]
  cases construct? with
  | some kind =>
    cases kind with
    | choice c => cases c <;> rfl
    | field f => cases f <;> rfl
  | none =>
    simp only [List.find?, Kind.accepts, Kind.ofConstruct, reduceCtorEq, decide_false]
    cases isIndexed text <;> cases isNamed text <;> rfl

theorem isIndexed_group (body : Text) :
    isIndexed ('{' :: (body ++ ['}'])) = Token.isPositional body := by
  rw [isIndexed, inside?_group, Option.any_some]

theorem isNamed_group (body : Text) : isNamed ('{' :: (body ++ ['}'])) = isIdentifier body := by
  rw [isNamed, inside?_group, Option.any_some]

end Kinds

section Finds

variable {t body rest : Text}

/-- What the kinds see of a group: the construct that its inside is, and its text. -/
theorem groupAt_of_closed (ht : t = body ++ '}' :: rest)
    (hclose : close? ('{' :: t) 0 = some (body.length + 2)) :
    groupAt ('{' :: t) (body.length + 2) =
      ⟨(Construct.ofInterior? ((mark t).take body.length)).map (·.2.kind),
        '{' :: (body ++ ['}'])⟩ := by
  have htext : Marks.text ((mark ('{' :: t)).take (body.length + 2)) = '{' :: (body ++ ['}']) := by
    rw [text_take_mark, ht, take_group]
  rw [groupAt, Group.ofMarks, htext, Construct.ofGroup?, Construct.interior?_take_mark hclose,
    Option.bind_eq_bind, Option.bind_some]
  cases Construct.ofInterior? ((mark t).take body.length) <;> rfl

/-- Protection under the default kinds finds the tokens that are of one of them. -/
theorem find_default (pos : Nat) (t : Text) :
    find .default (mark ('{' :: t)) = (Token.find pos (mark ('{' :: t))).bind fun found =>
      (Placed.ofToken? found.1).map fun p => (p, found.2) := by
  rw [find_mark_open]
  cases hclose : close? ('{' :: t) 0 with
  | none => rw [Token.find_of_unclosed hclose]; rfl
  | some n =>
    obtain ⟨body, rest, ht, rfl⟩ := closing_of_close? hclose
    have htake : ('{' :: t).take (body.length + 2) = '{' :: (body ++ ['}']) := by
      rw [ht, take_group]
    rw [Option.bind_some, htake, groupAt_of_closed ht hclose, ofGroup?_default,
      Token.find_of_closed ht hclose]
    simp only [isIndexed_group, isNamed_group]
    cases Construct.ofInterior? ((mark t).take body.length) with
    | some said => rfl
    | none =>
      rw [Token.name?_take_mark ht]
      by_cases hword : body ≠ [] ∧ body.all Text.isWord
      · rw [if_pos hword]
        simp only [Option.map_none, Option.bind_some, Placed.ofToken?, Token.defaultKind?]
        cases Token.isPositional body <;> cases isIdentifier body <;> rfl
      · -- names by position and identifiers hold word characters only
        have hpositional : ¬Token.isPositional body := mt all_isWord_of_isPositional hword
        have hidentifier : ¬isIdentifier body := mt all_isWord_of_isIdentifier hword
        rw [if_neg hword]
        simp only [Option.map_none, if_neg hpositional, if_neg hidentifier]
        split <;> rfl

/-- A token that is of no default kind holds no brace behind its first character. -/
theorem not_mem_of_ofToken?_eq_none {pos n : Nat} {token : Token}
    (h : Token.find pos (mark ('{' :: t)) = some (token, n))
    (hnone : Placed.ofToken? token = none) {u : Text} (hu : token.source = '{' :: u) : '{' ∉ u := by
  cases Token.found_of_find h with
  | unbalanced hclose =>
    obtain rfl : [] = u := (List.cons.inj hu).2
    exact List.not_mem_nil
  | malformed ht hclose hread hname hresembles =>
    obtain rfl : [] = u := (List.cons.inj hu).2
    exact List.not_mem_nil
  | construct ht hclose hread => cases hnone
  | @placeholder name _ ht hclose hread hne hword =>
    obtain rfl : name ++ ['}'] = u := (List.cons.inj hu).2
    intro hmem
    rcases List.mem_append.1 hmem with hname | hlast
    · exact absurd (List.all_eq_true.1 hword '{' hname) (by decide +kernel)
    · exact absurd hlast (by decide)

end Finds

section Pieces

/-- The pieces of protection that the pieces of reading are under the default kinds. -/
def shield : List (Piece Token) → List (Piece Placed)
  | [] => []
  | .literal t :: rest => Piece.prepend t (shield rest)
  | .found token :: rest =>
    match Placed.ofToken? token with
    | some p => .found p :: shield rest
    | none => Piece.prepend token.source (shield rest)

theorem shield_prepend (t : Text) (pieces : List (Piece Token)) :
    shield (Piece.prepend t pieces) = Piece.prepend t (shield pieces) := by
  match pieces with
  | [] => rfl
  | .literal u :: rest => rw [Piece.prepend, shield, shield, Piece.prepend_prepend]
  | .found token :: rest => rfl

/-- Protection under the default kinds and reading cut a text alike. -/
theorem cut_default (pos : Nat) (t : Text) :
    Piece.cut (fun _ => find .default) pos (mark t) =
      shield (Piece.cut Token.find pos (mark t)) := by
  induction pos, t using Piece.scan_induction Token.exact_find with
  | nil pos => rw [Piece.cut_mark_nil, Piece.cut_mark_nil, shield]
  | escape pos t ih => rw [Piece.cut_escape, Piece.cut_escape, shield_prepend, ih]
  | found pos u rest token ht hwrite hfind ih =>
    -- protection finds the token too, or it goes on from the next character
    have hplaced := find_default pos (u ++ rest)
    rw [hfind, Option.bind_some] at hplaced
    rw [Piece.cut_found _ pos ht hfind, shield]
    cases hkind : Placed.ofToken? token with
    | some p =>
      rw [hkind, Option.map_some] at hplaced
      rw [Piece.cut_found _ pos ht hplaced, ih]
    | none =>
      -- protection goes on inside the token and finds no brace there
      have hopen : '{' ∉ u := not_mem_of_ofToken?_eq_none hfind hkind hwrite
      rw [hkind, Option.map_none] at hplaced
      rw [Piece.cut_bare _ pos ht hplaced, Piece.cut_plain hopen,
        ← Piece.lead_of_ne_nil (List.cons_ne_nil '{' []), Piece.lead_lead,
        show pos + 1 + u.length = pos + (u.length + 1) by omega, ih, hwrite]
      rfl
  | bare pos t ht hfind ih =>
    have hplaced := find_default pos t
    rw [hfind, Option.bind_none] at hplaced
    rw [Piece.cut_bare _ pos ht hplaced, Piece.cut_bare _ pos ht hfind, shield_prepend, ih]
  | other pos c t hc ih =>
    rw [Piece.cut_other _ pos hc, Piece.cut_other _ pos hc, shield_prepend, ih]

theorem placed_shield (pieces : List (Piece Token)) :
    placed (shield pieces) = (pieces.map Token.ofPiece).filterMap Placed.ofToken? := by
  induction pieces with
  | nil => rfl
  | cons piece rest ih =>
    cases piece with
    | literal t =>
      rw [shield, placed_prepend, ih]
      rfl
    | found token =>
      rw [shield, List.map_cons, Token.ofPiece]
      cases hkind : Placed.ofToken? token with
      | some p => rw [placed, List.filterMap_cons_some hkind, ih]
      | none => rw [placed_prepend, List.filterMap_cons_none hkind, ih]

theorem numbered_shield (index : Nat) (pieces : List (Piece Token)) :
    numbered index (shield pieces) = Token.numbered index (pieces.map Token.ofPiece) := by
  induction pieces generalizing index with
  | nil => rfl
  | cons piece rest ih =>
    cases piece with
    | literal t =>
      rw [shield, numbered_prepend, ih]
      rfl
    | found token =>
      rw [shield, List.map_cons, Token.ofPiece, Token.numbered, Placed.ofToken?]
      cases token.defaultKind? with
      | some kind => exact congrArg (Protection.token index ++ ·) (ih (index + 1))
      | none => exact (numbered_prepend index token.source (shield rest)).trans (by rw [ih])

end Pieces

/-- Under the default kinds the placeholders of a text are those among its tokens: they are numbered
in order from zero, each with its source and the name of its kind, and all other tokens stay as they
are. -/
theorem protect_default (t : Text) :
    (protect .default t).map.entries =
        ((Token.ofPattern t).filterMap Placed.ofToken?).mapIdx (fun i p => (token i, p.source)) ∧
      (protect .default t).kinds =
        ((Token.ofPattern t).filterMap Placed.ofToken?).map (·.kind.name) ∧
      (protect .default t).replaced = Token.numbered 0 (Token.ofPattern t) := by
  have hpieces : pieces .default t = shield (Piece.cut Token.find 0 (mark t)) := cut_default 0 t
  rw [protect, entries_ofPieces, ofPieces, hpieces, placed_shield, numbered_shield,
    ← Token.ofPattern]
  exact ⟨rfl, rfl, rfl⟩

end Protection

end Parlance
