import Parlance.Brace
import Parlance.Brace.Index
/-!
Counting and marking agree: the pass from the right marks an opening brace with the length of the
group that counting finds there (mark_cons). So the marks of a pattern are known from the pattern
one character at a time, and what a mark says of a group is read off the group itself
(closing_of_close?, close?_inside).
-/

namespace Parlance.Brace

section Counting

variable {depth : Int} {pos stop : Nat} {t : Text}

theorem lt_closeFrom (h : closeFrom depth pos t = some stop) :
    pos < stop ∧ stop ≤ pos + t.length := by
  induction t generalizing depth pos with
  | nil => exact absurd h (by simp [closeFrom])
  | cons c t ih =>
    simp only [closeFrom] at h
    rw [List.length_cons]
    split at h
    · have := ih h; omega
    · split at h
      · split at h
        · simp only [Option.some.injEq] at h; omega
        · have := ih h; omega
      · have := ih h; omega

/-- Characters that are no braces are counted past. -/
theorem closeFrom_append_of_no_brace (depth : Int) (pos : Nat) {w : Text} (hopen : '{' ∉ w)
    (hclose : '}' ∉ w) (t : Text) :
    closeFrom depth pos (w ++ t) = closeFrom depth (pos + w.length) t := by
  induction w generalizing pos with
  | nil => rfl
  | cons c w ih =>
    simp only [List.mem_cons, not_or] at hopen hclose
    rw [List.cons_append, closeFrom, if_neg (Ne.symm hopen.1), if_neg (Ne.symm hclose.1),
      ih _ hopen.2 hclose.2, List.length_cons]
    congr 1
    omega

/-- The count comes back to zero at a closing brace. -/
theorem closing_of_closeFrom (h : closeFrom depth pos t = some stop) :
    ∃ body rest, t = body ++ '}' :: rest ∧ stop = pos + body.length + 1 := by
  induction t generalizing depth pos with
  | nil => exact absurd h (by simp [closeFrom])
  | cons c t ih =>
    have hstep : ∀ d, closeFrom d (pos + 1) t = some stop →
        ∃ body rest, c :: t = body ++ '}' :: rest ∧ stop = pos + body.length + 1 := by
      intro d hd
      obtain ⟨body, rest, hbody, hstop⟩ := ih hd
      refine ⟨c :: body, rest, by rw [hbody, List.cons_append], ?_⟩
      rw [List.length_cons]
      omega
    simp only [closeFrom] at h
    split at h
    · exact hstep _ h
    · split at h
      · next hc =>
        split at h
        · exact ⟨[], t, by rw [hc, List.nil_append], by simpa using h.symm⟩
        · exact hstep _ h
      · exact hstep _ h

end Counting

theorem close?_open (t : Text) : close? ('{' :: t) 0 = closeFrom 1 1 t := by
  simp [close?, closeFrom]

/-- A group is an opening brace, a body and a closing brace. -/
theorem closing_of_close? {t : Text} {n : Nat} (h : close? ('{' :: t) 0 = some n) :
    ∃ body rest, t = body ++ '}' :: rest ∧ n = body.length + 2 := by
  rw [close?_open] at h
  obtain ⟨body, rest, ht, hn⟩ := closing_of_closeFrom h
  exact ⟨body, rest, ht, by omega⟩

/-- Braces around a text without braces make a group. -/
theorem close?_inside {w : Text} (hopen : '{' ∉ w) (hclose : '}' ∉ w) (t : Text) :
    close? ('{' :: (w ++ '}' :: t)) 0 = some (w.length + 2) := by
  rw [close?_open, closeFrom_append_of_no_brace 1 1 hopen hclose, closeFrom]
  simp only [Char.reduceEq, if_false, if_true, Option.some.injEq]
  omega

namespace Pass

/-- The pass from the right over a text. -/
def ofText (t : Text) : Pass := t.foldr step start

theorem ofText_cons (c : Char) (t : Text) : ofText (c :: t) = step c (ofText t) := rfl

theorem length_ofText (t : Text) : (ofText t).length = t.length := by
  induction t with
  | nil => rfl
  | cons c t ih =>
    rw [ofText_cons, step]
    split
    · split <;> exact congrArg (· + 1) ih
    · split <;> exact congrArg (· + 1) ih

/-- For every closing brace that waits, the count from its depth ends there: the characters after
it are those that the pass noted. -/
theorem waiting_ofText (t : Text) (k pos : Nat) :
    (ofText t).waiting[k]? = (closeFrom (k + 1) pos t).map (pos + t.length - ·) := by
  induction t generalizing k pos with
  | nil => rfl
  | cons c t ih =>
    rw [ofText_cons, step, closeFrom, List.length_cons,
      show pos + (t.length + 1) = pos + 1 + t.length by omega]
    split
    · -- an opening brace takes the nearest closing brace that waits, so every other one moves up
      rw [show ((k : Int) + 1 + 1) = ((k + 1 : Nat) : Int) + 1 by omega, ← ih (k + 1) (pos + 1)]
      split
      · next hnone => rw [hnone]; rfl
      · next hsome => rw [hsome]; rfl
    · split
      · -- a closing brace is the nearest from now on
        cases k with
        | zero =>
          rw [if_pos (by simp), Option.map_some, List.getElem?_cons_zero, length_ofText]
          congr 1
          omega
        | succ k =>
          rw [if_neg (by omega), List.getElem?_cons_succ, ih k (pos + 1)]
          congr 2
          omega
      · exact ih k (pos + 1)

theorem marks_ofText_cons (c : Char) (t : Text) :
    (ofText (c :: t)).marks =
      ⟨c, if c = '{' then close? (c :: t) 0 else none⟩ :: (ofText t).marks := by
  rw [ofText_cons, step]
  split
  · next hc =>
    subst hc
    rw [close?_open]
    -- the group ends at the closing brace that waits nearest
    have hhead : (ofText t).waiting[0]? = (closeFrom 1 1 t).map (1 + t.length - ·) :=
      waiting_ofText t 0 1
    split
    · next hnone =>
      rw [hnone, List.getElem?_nil] at hhead
      rw [Option.map_eq_none_iff.1 hhead.symm]
    · next after waiting hsome =>
      rw [hsome, List.getElem?_cons_zero] at hhead
      obtain ⟨stop, hstop, hafter⟩ := Option.map_eq_some_iff.1 hhead.symm
      have hbound := lt_closeFrom hstop
      have hreach : t.length + 1 - (1 + t.length - stop) = stop := by omega
      rw [hstop, ← hafter, length_ofText, hreach]
  · split <;> rfl

end Pass

theorem mark_nil : mark [] = [] := rfl

/-- A mark holds the character and, at an opening brace, the end that counting finds. -/
theorem mark_cons (c : Char) (t : Text) :
    mark (c :: t) = ⟨c, if c = '{' then close? (c :: t) 0 else none⟩ :: mark t :=
  Pass.marks_ofText_cons c t

theorem mark_open (t : Text) : mark ('{' :: t) = ⟨'{', close? ('{' :: t) 0⟩ :: mark t := by
  rw [mark_cons, if_pos rfl]

theorem mark_drop (t : Text) (n : Nat) : (mark t).drop n = mark (t.drop n) := by
  induction n generalizing t with
  | zero => rfl
  | succ n ih =>
    cases t with
    | nil => rfl
    | cons c t => rw [mark_cons, List.drop_succ_cons, List.drop_succ_cons, ih]

theorem dropWhile_mark (p : Char → Bool) (t : Text) :
    (mark t).dropWhile (p ·.char) = mark (t.dropWhile p) := by
  induction t with
  | nil => rfl
  | cons c t ih =>
    rw [mark_cons, List.dropWhile_cons, List.dropWhile_cons, ← mark_cons]
    by_cases hc : p c
    · rw [if_pos hc, if_pos hc, ih]
    · rw [if_neg hc, if_neg hc]

theorem skipBlank_mark (t : Text) : (mark t).skipBlank = mark (t.dropWhile Text.isBlank) :=
  dropWhile_mark Text.isBlank t

theorem length_mark (t : Text) : (mark t).length = t.length := by
  rw [← List.length_map, show (mark t).map Mark.char = t from text_mark t]

theorem text_take_mark (t : Text) (n : Nat) : Marks.text ((mark t).take n) = t.take n := by
  rw [Marks.text, List.map_take]
  exact congrArg (List.take n) (text_mark t)

theorem length_group (body : Text) : ('{' :: (body ++ ['}'])).length = body.length + 2 := by simp

theorem take_group (body rest : Text) :
    ('{' :: (body ++ '}' :: rest)).take (body.length + 2) = '{' :: (body ++ ['}']) := by
  rw [List.take_succ_cons, List.take_length_add_append]
  rfl

end Parlance.Brace
