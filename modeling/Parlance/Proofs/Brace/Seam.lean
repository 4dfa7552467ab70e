import Parlance.Proofs.Brace.Closed
import Parlance.Proofs.Brace.Scan
/-!
The cut at a seam. A text in which every opening brace closes is cut alike whatever follows it, and
what follows is cut as if it stood alone (cut_append): no group and no escape reaches over the seam,
and only literal text on both sides becomes one piece.
-/

namespace Parlance.Brace

theorem Closed.of_append {p q : Text} (h : Closed (p ++ q)) : Closed q := by
  induction p with
  | nil => exact h
  | cons c p ih => exact ih (closed_cons.1 h).2

/-- The brace at the head of a closed text closes within the text. -/
theorem Closed.exists_close? {t : Text} (h : Closed ('{' :: t)) :
    ∃ n, close? ('{' :: t) 0 = some n ∧ n ≤ t.length + 1 := by
  obtain ⟨n, hn⟩ := Option.isSome_iff_exists.1 ((closed_cons.1 h).1 rfl)
  rw [close?_open] at hn
  refine ⟨n, (close?_open t).trans hn, ?_⟩
  have := (lt_closeFrom hn).2
  omega

/-- A brace that begins no escape in a closed text begins none in front of another text. -/
theorem Closed.head?_append {t : Text} (h : Closed ('{' :: t)) (ht : t.head? ≠ some '{')
    (q : Text) : (t ++ q).head? ≠ some '{' := by
  cases t with
  | nil =>
    obtain ⟨n, hn, -⟩ := h.exists_close?
    cases hn
  | cons c t => exact ht

namespace Piece

/-- Pieces side by side; literal text at the seam is one piece. -/
def glue {α : Type u} : List (Piece α) → List (Piece α) → List (Piece α)
  | [], others => others
  | [.literal t], .literal u :: others => .literal (t ++ u) :: others
  | piece :: pieces, others => piece :: glue pieces others

theorem prepend_glue {α : Type u} (t : Text) (pieces others : List (Piece α)) :
    prepend t (glue pieces others) = glue (prepend t pieces) others := by
  match pieces, others with
  | [], [] => rfl
  | [], .literal u :: others => rfl
  | [], .found a :: others => rfl
  | [.literal u], [] => rfl
  | [.literal u], .literal v :: others =>
    exact congrArg (fun w => .literal w :: others) (List.append_assoc t u v).symm
  | [.literal u], .found a :: others => rfl
  | .literal u :: piece :: pieces, others => rfl
  | .found a :: pieces, others => rfl

/-- What is found at a group hangs on the marks of the group alone. -/
def Confined {α : Type u} (find : Nat → Marks → Option (α × Nat)) : Prop :=
  ∀ pos ms others n, ms.head?.bind Mark.reach = some n → n ≤ ms.length →
    find pos (ms ++ others) = find pos ms

section Seam

variable {α : Type u} {find : Nat → Marks → Option (α × Nat)} {write : α → Text}

theorem Confined.find_append (hconfined : Confined find) {t : Text} (h : Closed ('{' :: t))
    (pos : Nat) (q : Text) : find pos (mark ('{' :: (t ++ q))) = find pos (mark ('{' :: t)) := by
  obtain ⟨n, hn, hlength⟩ := h.exists_close?
  rw [← List.cons_append, mark_append h]
  apply hconfined pos _ _ n
  · rw [mark_open, List.head?_cons, Option.bind_some, hn]
  · rwa [length_mark, List.length_cons]

/-- A closed text and what follows it are cut apart. -/
theorem cut_append (hexact : Exact find write) (hconfined : Confined find) {p : Text}
    (hp : Closed p) (q : Text) (pos : Nat) :
    cut find pos (mark (p ++ q)) =
      glue (cut find pos (mark p)) (cut find (pos + p.length) (mark q)) := by
  induction pos, p using scan_induction hexact with
  | nil pos => rw [cut_mark_nil]; rfl
  | escape pos t ih =>
    have ht : Closed t := (closed_cons.1 (closed_cons.1 hp).2).2
    rw [cut_escape, List.cons_append, List.cons_append, cut_escape, ih ht, prepend_glue,
      List.length_cons, List.length_cons,
      show pos + 2 + t.length = pos + (t.length + 1 + 1) by omega]
  | found pos u rest a ht hwrite hfind ih =>
    have hrest : Closed rest := (closed_cons.1 hp).2.of_append
    have hhead := hp.head?_append ht q
    have hfindq := hconfined.find_append hp pos q
    rw [hfind, List.append_assoc] at hfindq
    rw [List.append_assoc] at hhead
    rw [cut_found find pos ht hfind, List.cons_append, List.append_assoc,
      cut_found find pos hhead hfindq, ih hrest, List.length_cons, List.length_append,
      show pos + (u.length + 1) + rest.length = pos + (u.length + rest.length + 1) by omega]
    rfl
  | bare pos t ht hfind ih =>
    have hhead := hp.head?_append ht q
    have hfindq := hconfined.find_append hp pos q
    rw [hfind] at hfindq
    rw [cut_bare find pos ht hfind, List.cons_append, cut_bare find pos hhead hfindq,
      ih (closed_cons.1 hp).2, prepend_glue, List.length_cons, Nat.add_right_comm, Nat.add_assoc]
  | other pos c t hc ih =>
    rw [cut_other find pos hc, List.cons_append, cut_other find pos hc, ih (closed_cons.1 hp).2,
      prepend_glue, List.length_cons, Nat.add_right_comm, Nat.add_assoc]

end Seam

section Moving

variable {α : Type u} {β : Type v}

/-- Another find in the same place. -/
def map (f : α → β) : Piece α → Piece β
  | .literal t => .literal t
  | .found a => .found (f a)

theorem map_prepend (f : α → β) (t : Text) (pieces : List (Piece α)) :
    (prepend t pieces).map (map f) = prepend t (pieces.map (map f)) := by
  match pieces with
  | [] => rfl
  | .literal u :: rest => rfl
  | .found a :: rest => rfl

/-- Where other finds are made in the same places or so many characters further on, the pieces are
cut alike. -/
theorem cut_add {find : Nat → Marks → Option (α × Nat)} {other : Nat → Marks → Option (β × Nat)}
    {f : α → β} {k : Nat}
    (hmove : ∀ pos ms, other (pos + k) ms = (find pos ms).map fun (a, n) => (f a, n))
    (pos : Nat) (ms : Marks) : cut other (pos + k) ms = (cut find pos ms).map (map f) := by
  fun_induction cut find pos ms with
  | case1 pos => rw [cut]; rfl
  | case2 pos m rest hm hesc ih =>
    rw [cut, if_pos hm, if_pos hesc, map_prepend, ← ih, Nat.add_right_comm]
  | case3 pos m rest hm hesc a n hfind ih =>
    have hmoved := hmove pos (m :: rest)
    rw [hfind] at hmoved
    rw [Nat.add_right_comm] at ih
    rw [cut, if_pos hm, if_neg hesc, hmoved]
    exact congrArg (.found (f a) :: ·) ih
  | case4 pos m rest hm hesc hfind ih =>
    have hmoved := hmove pos (m :: rest)
    rw [hfind] at hmoved
    rw [cut, if_pos hm, if_neg hesc, hmoved, map_prepend, ← ih, Nat.add_right_comm]
    rfl
  | case5 pos m rest hm ih =>
    rw [cut, if_neg hm, map_prepend, ← ih, Nat.add_right_comm]

end Moving

end Piece

end Parlance.Brace
