import Parlance.Proofs.Brace.Scan
import Parlance.Protection
/-!
The groups that protection offers to the kinds on its way through a text. A group that is accepted
is jumped over, and a group that no kind accepts is looked through; so the placeholders are the
offered groups that a kind accepts (placed_cut).
-/

namespace Parlance

open Brace Placeholder

namespace Protection

variable (kinds : Kinds)

/-- The groups that are offered to the kinds, in order. -/
def offers (ms : Marks) : List Group :=
  match ms with
  | [] => []
  | m :: rest =>
    if m.char = '{' then
      if Marks.startsEscape (m :: rest) then offers (rest.drop 1)
      else
        match m.reach with
        | none => offers rest
        | some n =>
          let group := Group.ofMarks ((m :: rest).take n)
          group ::
            if (kinds.ofGroup? group).isSome then offers (rest.drop (n - 1)) else offers rest
    else offers rest
termination_by ms.length
decreasing_by all_goals simp only [List.length_drop, List.length_cons]; omega

/-- The placeholder that an offered group is, if a kind accepts it. -/
def Placed.ofGroup? (group : Group) : Option Placed :=
  (kinds.ofGroup? group).map (⟨group.text, ·⟩)

/-- The group of a given length at the start of a text. -/
def groupAt (t : Text) (n : Nat) : Group := Group.ofMarks ((mark t).take n)

theorem text_groupAt (t : Text) (n : Nat) : (groupAt t n).text = t.take n := text_take_mark t n

section Steps

theorem find_mark_open (t : Text) :
    find kinds (mark ('{' :: t)) = (close? ('{' :: t) 0).bind fun n =>
      (kinds.ofGroup? (groupAt ('{' :: t) n)).map fun kind => (⟨('{' :: t).take n, kind⟩, n) := by
  have hreach : (mark ('{' :: t)).head?.bind Mark.reach = close? ('{' :: t) 0 := by
    rw [mark_open]
    rfl
  rw [find, hreach]
  cases close? ('{' :: t) 0 with
  | none => rfl
  | some n =>
    have htext : (Group.ofMarks ((mark ('{' :: t)).take n)).text = ('{' :: t).take n :=
      text_groupAt ('{' :: t) n
    simp only [Option.bind_eq_bind, Option.bind_some, groupAt, htext]
    cases kinds.ofGroup? (Group.ofMarks ((mark ('{' :: t)).take n)) <;> rfl

/-- What protection finds is written as the characters that it takes. -/
theorem exact_find : Piece.Exact (fun _ => find kinds) Placed.source := by
  intro _ t p n h
  change find kinds (mark ('{' :: t)) = some (p, n) at h
  rw [find_mark_open] at h
  obtain ⟨m, hclose, hkind⟩ := Option.bind_eq_some_iff.1 h
  obtain ⟨kind, -, hplaced⟩ := Option.map_eq_some_iff.1 hkind
  obtain ⟨rfl, rfl⟩ := Prod.mk.inj hplaced
  obtain ⟨body, rest, ht, rfl⟩ := closing_of_close? hclose
  refine ⟨body ++ ['}'], rest, by rw [ht, List.append_assoc]; rfl, ?_, by simp⟩
  change ('{' :: t).take (body.length + 1 + 1) = _
  rw [ht, List.take_succ_cons, List.take_length_add_append]
  rfl

theorem offers_nil : offers kinds (mark []) = [] := by rw [mark_nil, offers]

theorem offers_escape (t : Text) :
    offers kinds (mark ('{' :: '{' :: t)) = offers kinds (mark t) := by
  rw [mark_open, mark_open, offers, if_pos rfl, if_pos (by simp [Marks.startsEscape])]
  rfl

theorem offers_other {c : Char} (hc : c ≠ '{') (t : Text) :
    offers kinds (mark (c :: t)) = offers kinds (mark t) := by
  rw [mark_cons, offers, if_neg hc]

theorem offers_open {t : Text} (ht : t.head? ≠ some '{') :
    offers kinds (mark ('{' :: t)) =
      match close? ('{' :: t) 0 with
      | none => offers kinds (mark t)
      | some n =>
        groupAt ('{' :: t) n ::
          if (kinds.ofGroup? (groupAt ('{' :: t) n)).isSome then
            offers kinds (mark (t.drop (n - 1)))
          else offers kinds (mark t) := by
  have hesc := Piece.startsEscape_mark_open ht
  rw [mark_open] at hesc
  rw [mark_open, offers, if_pos rfl, if_neg (by simp [hesc])]
  simp only [groupAt, mark_open, mark_drop]

theorem offers_found {u rest : Text} {p : Placed} (ht : (u ++ rest).head? ≠ some '{')
    (h : find kinds (mark ('{' :: (u ++ rest))) = some (p, u.length + 1)) :
    ∃ group, offers kinds (mark ('{' :: (u ++ rest))) = group :: offers kinds (mark rest) ∧
      Placed.ofGroup? kinds group = some p := by
  rw [find_mark_open] at h
  obtain ⟨n, hclose, hkind⟩ := Option.bind_eq_some_iff.1 h
  obtain ⟨kind, hgroup, hplaced⟩ := Option.map_eq_some_iff.1 hkind
  obtain ⟨rfl, rfl⟩ := Prod.mk.inj hplaced
  refine ⟨groupAt ('{' :: (u ++ rest)) (u.length + 1), ?_, ?_⟩
  · rw [offers_open kinds ht, hclose]
    simp only [hgroup, Option.isSome_some, if_true, Nat.add_sub_cancel, List.drop_left]
  · rw [Placed.ofGroup?, hgroup, text_groupAt]
    rfl

/-- Where nothing is found, a group that closes is offered and not accepted. -/
theorem offers_bare {t : Text} (ht : t.head? ≠ some '{')
    (h : find kinds (mark ('{' :: t)) = none) :
    offers kinds (mark ('{' :: t)) =
        ((close? ('{' :: t) 0).map (groupAt ('{' :: t))).toList ++ offers kinds (mark t) ∧
      ∀ n, close? ('{' :: t) 0 = some n → kinds.ofGroup? (groupAt ('{' :: t) n) = none := by
  have hnone : ∀ n, close? ('{' :: t) 0 = some n →
      kinds.ofGroup? (groupAt ('{' :: t) n) = none := by
    intro n hclose
    rw [find_mark_open, hclose] at h
    simpa using h
  refine ⟨?_, hnone⟩
  rw [offers_open kinds ht]
  cases hclose : close? ('{' :: t) 0 with
  | none => rfl
  | some n => simp [hnone n hclose]

end Steps

theorem placed_prepend (u : Text) (pieces : List (Piece Placed)) :
    placed (Piece.prepend u pieces) = placed pieces := by
  match pieces with
  | [] => rfl
  | .literal _ :: _ => rfl
  | .found _ :: _ => rfl

/-- The placeholders are the offered groups that a kind accepts. -/
theorem placed_cut (pos : Nat) (t : Text) :
    placed (Piece.cut (fun _ => find kinds) pos (mark t)) =
      (offers kinds (mark t)).filterMap (Placed.ofGroup? kinds) := by
  induction pos, t using Piece.scan_induction (exact_find kinds) with
  | nil pos => rw [Piece.cut_mark_nil, offers_nil]; rfl
  | escape pos t ih => rw [Piece.cut_escape, placed_prepend, offers_escape, ih]
  | found pos u rest p ht hwrite hfind ih =>
    obtain ⟨group, hoffers, hgroup⟩ := offers_found kinds ht hfind
    rw [Piece.cut_found _ pos ht hfind, placed, hoffers, List.filterMap_cons_some hgroup, ih]
  | bare pos t ht hfind ih =>
    obtain ⟨hoffers, hnone⟩ := offers_bare kinds ht hfind
    rw [Piece.cut_bare _ pos ht hfind, placed_prepend, hoffers, ih]
    cases hclose : close? ('{' :: t) 0 with
    | none => rfl
    | some n => simp [Placed.ofGroup?, hnone n hclose]
  | other pos c t hc ih => rw [Piece.cut_other _ pos hc, placed_prepend, offers_other kinds hc, ih]

end Protection

end Parlance
