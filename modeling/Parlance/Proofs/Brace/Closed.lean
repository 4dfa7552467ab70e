import Parlance.Proofs.Brace.Closing
/-!
Texts in which every opening brace closes (Closed). What follows such a text does not change how it
is marked (mark_append). A group is such a text (closed_of_close?), so it is marked the same
wherever it stands (mark_group_append).
-/

namespace Parlance.Brace

section Counting

variable {depth : Int} {pos stop : Nat} {t : Text}

/-- Whether and where the count ends within a text does not hang on what follows it. -/
theorem closeFrom_append_iff (u : Text) :
    closeFrom depth pos (t ++ u) = some stop ∧ stop ≤ pos + t.length ↔
      closeFrom depth pos t = some stop := by
  induction t generalizing depth pos with
  | nil =>
    simp only [closeFrom, reduceCtorEq, iff_false, List.nil_append, List.length_nil]
    rintro ⟨h, hstop⟩
    have hlt : pos < stop := (lt_closeFrom h).1
    omega
  | cons c t ih =>
    have hlength : pos + (t.length + 1) = pos + 1 + t.length := by omega
    simp only [List.cons_append, closeFrom, List.length_cons, hlength]
    split
    · exact ih
    · split
      · split
        · simp only [Option.some.injEq, and_iff_left_iff_imp]
          omega
        · exact ih
      · exact ih

/-- Where a deeper count ends, a count from depth one has ended before. -/
theorem isSome_closeFrom_one {k : Nat} (h : (closeFrom (k + 1) pos t).isSome) :
    (closeFrom 1 1 t).isSome := by
  have hdeep : ((Pass.ofText t).waiting[k]?).isSome := by
    rw [Pass.waiting_ofText t k pos, Option.isSome_map]
    exact h
  have hlength : k < (Pass.ofText t).waiting.length := by
    simpa using hdeep
  have hfirst : ((Pass.ofText t).waiting[0]?).isSome := by
    simpa using Nat.lt_of_le_of_lt (Nat.zero_le k) hlength
  rw [Pass.waiting_ofText t 0 1, Option.isSome_map] at hfirst
  exact hfirst

end Counting

/-- Every opening brace of the text closes. -/
def Closed (t : Text) : Prop := ∀ m ∈ mark t, m.char = '{' → m.reach.isSome

theorem closed_nil : Closed [] := by
  intro m hm
  rw [mark_nil] at hm
  exact absurd hm List.not_mem_nil

theorem closed_cons {c : Char} {t : Text} :
    Closed (c :: t) ↔ (c = '{' → (close? (c :: t) 0).isSome) ∧ Closed t := by
  rw [Closed, mark_cons, List.forall_mem_cons]
  apply and_congr_left'
  apply imp_congr_right
  intro hc
  rw [if_pos hc]

theorem close?_open_append {t : Text} {n : Nat} (h : close? ('{' :: t) 0 = some n) (u : Text) :
    close? ('{' :: (t ++ u)) 0 = some n := by
  rw [close?_open] at h ⊢
  exact ((closeFrom_append_iff u).2 h).1

/-- What follows a text in which all opening braces close does not change its marks. -/
theorem mark_append {p : Text} (h : Closed p) (q : Text) : mark (p ++ q) = mark p ++ mark q := by
  induction p with
  | nil => rw [mark_nil, List.nil_append, List.nil_append]
  | cons c p ih =>
    rw [closed_cons] at h
    rw [List.cons_append, mark_cons, mark_cons, ih h.2, List.cons_append]
    by_cases hc : c = '{'
    · obtain ⟨n, hn⟩ := Option.isSome_iff_exists.1 (h.1 hc)
      subst hc
      rw [hn, close?_open_append hn]
    · rw [if_neg hc, if_neg hc]

/-- In a text at whose end the count ends, every opening brace closes. -/
theorem closed_of_closeFrom {k pos : Nat} {t : Text}
    (h : closeFrom (k + 1) pos t = some (pos + t.length)) : Closed t := by
  induction t generalizing k pos with
  | nil => exact closed_nil
  | cons c t ih =>
    rw [List.length_cons, show pos + (t.length + 1) = pos + 1 + t.length by omega] at h
    simp only [closeFrom] at h
    rw [closed_cons]
    split at h
    · next hc =>
      have hdeeper : closeFrom ((k + 1 : Nat) + 1) (pos + 1) t = some (pos + 1 + t.length) := h
      refine ⟨fun _ => ?_, ih hdeeper⟩
      rw [hc, close?_open]
      exact isSome_closeFrom_one (Option.isSome_iff_exists.2 ⟨_, hdeeper⟩)
    · next hc =>
      refine ⟨fun hopen => absurd hopen hc, ?_⟩
      split at h
      · split at h
        · -- the count ends here, so nothing follows
          have hlength : t.length = 0 := by simpa using h
          rw [List.length_eq_zero_iff.1 hlength]
          exact closed_nil
        · next hdepth =>
          obtain ⟨j, rfl⟩ : ∃ j, k = j + 1 := Nat.exists_eq_succ_of_ne_zero (by omega)
          rw [show ((j + 1 : Nat) : Int) + 1 - 1 = (j : Int) + 1 by omega] at h
          exact ih h
      · exact ih h

section Groups

variable {body : Text}

theorem close?_group_append_iff (rest : Text) :
    close? ('{' :: (body ++ '}' :: rest)) 0 = some (body.length + 2) ↔
      close? ('{' :: (body ++ ['}'])) 0 = some (body.length + 2) := by
  have hlength : body.length + 2 ≤ 1 + (body ++ ['}']).length := by
    rw [List.length_append, List.length_singleton]
    omega
  have hcount : closeFrom 1 1 (body ++ ['}'] ++ rest) = some (body.length + 2) ∧
      body.length + 2 ≤ 1 + (body ++ ['}']).length ↔
        closeFrom 1 1 (body ++ ['}']) = some (body.length + 2) := closeFrom_append_iff rest
  rw [List.append_cons, close?_open, close?_open, ← hcount, and_iff_left hlength]

/-- In a group every opening brace closes. -/
theorem closed_of_close? (h : close? ('{' :: (body ++ ['}'])) 0 = some (body.length + 2)) :
    Closed (body ++ ['}']) := by
  have hcount : closeFrom ((0 : Nat) + 1) 1 (body ++ ['}']) =
      some (1 + (body ++ ['}']).length) := by
    rw [List.length_append, List.length_singleton, show 1 + (body.length + 1) = body.length + 2 by
      omega, ← h, close?_open]
    rfl
  exact closed_of_closeFrom hcount

/-- The inside of a group is marked the same wherever the group stands. -/
theorem mark_group_append (h : close? ('{' :: (body ++ ['}'])) 0 = some (body.length + 2))
    (rest : Text) :
    (mark (body ++ '}' :: rest)).take body.length = (mark (body ++ ['}'])).take body.length := by
  rw [List.append_cons, mark_append (closed_of_close? h)]
  apply List.take_append_of_le_length
  rw [length_mark, List.length_append]
  exact Nat.le_add_right ..

end Groups

end Parlance.Brace
