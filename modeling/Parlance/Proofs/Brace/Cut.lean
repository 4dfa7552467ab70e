import Mathlib.Data.List.TakeWhile
import Parlance.Proofs.Brace.Closed
/-!
A part of a marked pattern against the same part marked alone. The two differ only at the braces
whose group goes beyond the end of the part: alone, these never close (clip_take_mark).
-/

namespace Parlance.Brace

/-- A group of a text is a group of the text cut off behind it, and no other group is left there. -/
theorem close?_append_filter (t u : Text) :
    (close? (t ++ u) 0).filter (· ≤ t.length) = close? t 0 := by
  ext stop
  have hcount : closeFrom 0 0 (t ++ u) = some stop ∧ stop ≤ 0 + t.length ↔
      closeFrom 0 0 t = some stop := closeFrom_append_iff u
  rw [Nat.zero_add] at hcount
  rw [Option.filter_eq_some_iff, decide_eq_true_iff, close?, close?, List.drop_zero, List.drop_zero,
    hcount]

namespace Marks

/-- A brace whose group goes beyond the last mark counts as one that never closes. -/
def clip : Marks → Marks
  | [] => []
  | m :: rest => { m with reach := m.reach.filter (· ≤ rest.length + 1) } :: clip rest

variable (ms : Marks)

@[simp]
theorem text_clip : text (clip ms) = text ms := by
  induction ms with
  | nil => rfl
  | cons m rest ih => exact congrArg (m.char :: ·) ih

@[simp]
theorem length_clip : (clip ms).length = ms.length := by
  have h := congrArg List.length (text_clip ms)
  rwa [text, text, List.length_map, List.length_map] at h

theorem isEmpty_text : (text ms).isEmpty = ms.isEmpty := List.isEmpty_map

theorem isEmpty_clip : (clip ms).isEmpty = ms.isEmpty := by
  cases ms <;> rfl

theorem drop_clip (n : Nat) : (clip ms).drop n = clip (ms.drop n) := by
  induction n generalizing ms with
  | zero => rfl
  | succ n ih =>
    cases ms with
    | nil => rfl
    | cons m rest => exact ih rest

theorem text_take_clip (n : Nat) : text ((clip ms).take n) = text (ms.take n) := by
  have htake (ms : Marks) : text (ms.take n) = (text ms).take n := List.map_take
  rw [htake, htake, text_clip]

theorem text_takeWhile (p : Char → Bool) :
    text (ms.takeWhile (p ·.char)) = (text ms).takeWhile p := by
  rw [text, text, List.takeWhile_map]
  rfl

theorem dropWhile_clip (p : Char → Bool) :
    (clip ms).dropWhile (p ·.char) = clip (ms.dropWhile (p ·.char)) := by
  induction ms with
  | nil => rfl
  | cons m rest ih =>
    rw [clip, List.dropWhile_cons, List.dropWhile_cons]
    split
    · exact ih
    · rfl

theorem skipBlank_clip : skipBlank (clip ms) = clip (skipBlank ms) := dropWhile_clip ms Text.isBlank

end Marks

/-- What follows a text changes its marks only where a group goes beyond its end. -/
theorem clip_take_mark (t u : Text) : Marks.clip ((mark (t ++ u)).take t.length) = mark t := by
  induction t with
  | nil => rfl
  | cons c t ih =>
    have hlength : ((mark (t ++ u)).take t.length).length + 1 = (c :: t).length := by
      rw [List.length_take, length_mark, List.length_append, Nat.min_eq_left (Nat.le_add_right ..),
        List.length_cons]
    rw [List.cons_append, mark_cons, List.length_cons, List.take_succ_cons, Marks.clip, ih,
      hlength, mark_cons]
    congr 2
    split
    · exact close?_append_filter (c :: t) u
    · rfl

end Parlance.Brace
