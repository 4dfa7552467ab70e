import Parlance.Proofs.Construct.Regrouped
import Parlance.Proofs.Protection.Tokens
/-!
Protecting what was protected (protect_replaced). The numbers in a protected text are placeholders
themselves, and they get the same numbers again. Every other group of the text is the same except
for what its own groups hold, which decides nothing under the default kinds: what was no
placeholder is none afterwards (isSome_find_of_regrouped).
-/

namespace Parlance

open Brace Placeholder

namespace Protection

/-- A numbered placeholder as protection places it. -/
def Placed.ofIndex (index : Nat) : Placed := ⟨token index, ⟨"Indexed", .spelled isIndexed, false⟩⟩

section Groups

variable {t t' body rest u : Text}

/-- A group is a placeholder under the default kinds exactly if its inside is that of a construct, a
name by position or an identifier. -/
theorem isSome_find_default_iff (hbody : Balanced body) (rest : Text) :
    (find .default (mark ('{' :: (body ++ '}' :: rest)))).isSome ↔
      (Construct.ofInterior? (mark body)).isSome ∨ Token.isPositional body ∨ isIdentifier body := by
  have hclose := (close?_group_iff rest).2 hbody
  rw [find_mark_open, hclose, Option.bind_some, Option.isSome_map, groupAt_of_closed rfl hclose,
    Construct.ofInterior?_take_mark, ofGroup?_default, isIndexed_group, isNamed_group]
  cases Construct.ofInterior? (mark body) with
  | some said => simp
  | none =>
    simp only [Option.map_none]
    cases Token.isPositional body <;> cases isIdentifier body <;> simp

theorem open_notMem_of_word (h : body ≠ [] ∧ body.all Text.isWord) : '{' ∉ body := by
  intro hmem
  exact absurd (List.all_eq_true.1 h.2 '{' hmem) (by decide +kernel)

/-- Whether a placeholder begins at a brace does not hang on what the groups behind it hold. -/
theorem isSome_find_of_regrouped (h : Regrouped t t')
    (hsome : (find .default (mark ('{' :: t))).isSome) :
    (find .default (mark ('{' :: t'))).isSome := by
  cases hclose : close? ('{' :: t) 0 with
  | none =>
    rw [find_mark_open, hclose] at hsome
    cases hsome
  | some n =>
    obtain ⟨body, rest, rfl, -, hbody⟩ := exists_balanced_of_close? hclose
    obtain ⟨body', rest', rfl, hbody', hsame, -⟩ := h.exists_close hbody
    rw [isSome_find_default_iff hbody] at hsome
    rw [isSome_find_default_iff hbody', Construct.isSome_ofInterior?_of_regrouped hsame]
    rcases hsome with hconstruct | hname
    · exact .inl hconstruct
    · -- a name holds no group
      have hword : body ≠ [] ∧ body.all Text.isWord :=
        hname.elim all_isWord_of_isPositional all_isWord_of_isIdentifier
      rw [hsame.eq_of_no_open (open_notMem_of_word hword)]
      exact .inr hname

theorem exists_balanced_of_find {kinds : Kinds} {p : Placed}
    (h : find kinds (mark ('{' :: (u ++ rest))) = some (p, u.length + 1)) :
    ∃ body, u = body ++ ['}'] ∧ Balanced body := by
  rw [find_mark_open] at h
  obtain ⟨n, hclose, hkind⟩ := Option.bind_eq_some_iff.1 h
  obtain ⟨kind, -, hplaced⟩ := Option.map_eq_some_iff.1 hkind
  obtain ⟨-, rfl⟩ := Prod.mk.inj hplaced
  obtain ⟨body, behind, ht, hlength, hbody⟩ := exists_balanced_of_close? hclose
  have hsplit : u ++ rest = body ++ ['}'] ++ behind := by simp [ht]
  refine ⟨body, (List.append_inj hsplit ?_).1, hbody⟩
  rw [List.length_append, List.length_singleton]
  omega

theorem balanced_ofNat (index : Nat) : Balanced (Text.ofNat index) :=
  balanced_of_no_brace (open_notMem_digits (indexDigits index))
    (close_notMem_digits (indexDigits index))

/-- Numbering exchanges groups for groups. -/
theorem regrouped_numbered (kinds : Kinds) (index pos : Nat) (t : Text) :
    Regrouped t (numbered index (Piece.cut (fun _ => find kinds) pos (mark t))) := by
  induction pos, t using Piece.scan_induction (exact_find kinds) generalizing index with
  | nil pos =>
    rw [Piece.cut_mark_nil]
    exact .nil
  | escape pos t ih =>
    rw [Piece.cut_escape, numbered_prepend]
    exact .char '{' (.char '{' (ih index))
  | found pos u rest p ht hwrite hfind ih =>
    obtain ⟨body, rfl, hbody⟩ := exists_balanced_of_find hfind
    rw [Piece.cut_found _ pos ht hfind, numbered, token]
    simpa using Regrouped.group hbody (balanced_ofNat index) (ih (index + 1))
  | bare pos t ht hfind ih =>
    rw [Piece.cut_bare _ pos ht hfind, numbered_prepend]
    exact .char '{' (ih index)
  | other pos c t hc ih =>
    rw [Piece.cut_other _ pos hc, numbered_prepend]
    exact .char c (ih index)

end Groups

section Again

/-- A number is found as the placeholder that it is. -/
theorem find_token (index : Nat) (t : Text) :
    find .default (mark ('{' :: (Text.ofNat index ++ '}' :: t))) =
      some (.ofIndex index, (Text.ofNat index).length + 2) := by
  have hclose := (close?_group_iff t).2 (balanced_ofNat index)
  have hword : (Text.ofNat index).all Text.isWord :=
    List.all_eq_true.2 fun c hc => Text.isWord_of_isDigit (Text.isDigit_of_mem_ofNat hc)
  have hinterior : Construct.ofInterior? (mark (Text.ofNat index)) = none :=
    Construct.ofInterior?_of_word (by rwa [text_mark])
  rw [find_mark_open, hclose, Option.bind_some, groupAt_of_closed rfl hclose,
    Construct.ofInterior?_take_mark, hinterior, ofGroup?_default, take_group]
  have hindexed : isIndexed ('{' :: (Text.ofNat index ++ ['}'])) := isIndexed_token index
  simp only [Option.map_none, if_pos hindexed, Option.map_some]
  rfl

theorem cut_token (index pos : Nat) (t : Text) :
    Piece.cut (fun _ => find .default) pos (mark (token index ++ t)) =
      .found (.ofIndex index) ::
        Piece.cut (fun _ => find .default) (pos + ((Text.ofNat index).length + 2)) (mark t) := by
  have hhead : (Text.ofNat index).head? ≠ some '{' :=
    fun hopen => open_notMem_digits (indexDigits index) (List.mem_of_head? hopen)
  exact Piece.cut_group (fun _ => find .default) pos hhead t (find_token index t)

/-- The placeholders of a protected text are its numbers. -/
theorem placed_cut_numbered (index pos pos' : Nat) (t : Text) :
    placed (Piece.cut (fun _ => find .default) pos'
        (mark (numbered index (Piece.cut (fun _ => find .default) pos (mark t))))) =
      (List.range' index (placed (Piece.cut (fun _ => find .default) pos (mark t))).length).map
        Placed.ofIndex := by
  induction pos, t using Piece.scan_induction (exact_find .default) generalizing index pos' with
  | nil pos =>
    rw [Piece.cut_mark_nil, numbered, Piece.cut_mark_nil]
    rfl
  | escape pos t ih =>
    rw [Piece.cut_escape, numbered_prepend, placed_prepend, List.cons_append, List.singleton_append,
      Piece.cut_escape, placed_prepend, ih]
  | found pos u rest p ht hwrite hfind ih =>
    rw [Piece.cut_found _ pos ht hfind, numbered, cut_token, placed, placed, ih, List.length_cons,
      List.range'_succ, List.map_cons]
  | bare pos t ht hfind ih =>
    have hnumbered : find .default (mark ('{' ::
        numbered index (Piece.cut (fun _ => find .default) (pos + 1) (mark t)))) = none := by
      rw [← Option.not_isSome_iff_eq_none]
      intro hsome
      have hbefore :=
        isSome_find_of_regrouped (regrouped_numbered .default index (pos + 1) t).symm hsome
      rw [hfind] at hbefore
      cases hbefore
    have hhead : (numbered index (Piece.cut (fun _ => find .default) (pos + 1) (mark t))).head? ≠
        some '{' := by
      rwa [head?_numbered]
    rw [Piece.cut_bare _ pos ht hfind, numbered_prepend, placed_prepend, List.singleton_append,
      Piece.cut_bare _ pos' hhead hnumbered, placed_prepend, ih]
  | other pos c t hc ih =>
    rw [Piece.cut_other _ pos hc, numbered_prepend, placed_prepend, List.singleton_append,
      Piece.cut_other _ pos' hc, placed_prepend, ih]

/-- Numbering leaves pieces alone that are numbered in order. -/
theorem numbered_of_placed_eq_range' {pieces : List (Piece Placed)} {index n : Nat}
    (h : placed pieces = (List.range' index n).map Placed.ofIndex) :
    numbered index pieces = pieces.flatMap (Piece.text Placed.source) := by
  induction pieces generalizing index n with
  | nil => rfl
  | cons piece rest ih =>
    cases piece with
    | literal u => rw [numbered, ih h, List.flatMap_cons, Piece.text]
    | found p =>
      cases n with
      | zero => cases h
      | succ n =>
        rw [placed, List.range'_succ, List.map_cons] at h
        obtain ⟨rfl, hrest⟩ := List.cons.inj h
        rw [numbered, ih hrest, List.flatMap_cons]
        rfl

end Again

/-- Protecting a protected text leaves it as it is: its placeholders are the numbers in it, and each
of them stands for itself, in order. -/
theorem protect_replaced (t : Text) :
    (protect .default (protect .default t).replaced).replaced = (protect .default t).replaced ∧
    (protect .default (protect .default t).replaced).map.entries =
      (List.range (protect .default t).map.size).map (fun i => (token i, token i)) ∧
    (protect .default (protect .default t).replaced).kinds =
      List.replicate (protect .default t).map.size "Indexed".toList := by
  have hplaced : placed (pieces .default (protect .default t).replaced) =
      (List.range' 0 (protect .default t).map.size).map Placed.ofIndex := by
    rw [size_protect]
    exact placed_cut_numbered 0 0 0 t
  refine ⟨?_, ?_, ?_⟩
  · change numbered 0 (pieces .default (protect .default t).replaced) = _
    rw [numbered_of_placed_eq_range' hplaced]
    exact Piece.flatMap_cut (exact_find .default) 0 _
  · rw [protect, entries_ofPieces, hplaced, ← List.range_eq_range']
    apply List.ext_getElem
    · simp
    · simp [Placed.ofIndex]
  · change (placed (pieces .default (protect .default t).replaced)).map (·.kind.name) = _
    rw [hplaced, List.map_map, List.eq_replicate_iff]
    refine ⟨by simp, fun name hname => ?_⟩
    obtain ⟨index, -, rfl⟩ := List.mem_map.1 hname
    rfl

end Protection

end Parlance
