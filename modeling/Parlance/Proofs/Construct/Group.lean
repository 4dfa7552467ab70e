import Mathlib.Data.List.TakeWhile
import Parlance.Proofs.Brace.Closed
import Parlance.Proofs.Token.Found
/-!
Constructs that are read from a text of their own: what such a group says stands between its outer
braces (parse?_group). The inside begins with no brace (head?_of_ofInterior?) and is no mere name
(ofInterior?_of_word).
-/

namespace Parlance.Construct

open Brace

/-- The inside of a construct does not begin with an opening brace. -/
theorem read?_open {m : Mark} (hm : m.char = '{') (inner : Marks) :
    Header.read? (m :: inner) = none := by
  have hblank : Text.isBlank m.char = false := by rw [hm]; decide
  have hword : Text.isWord m.char = false := by rw [hm]; decide +kernel
  have hskip : Marks.skipBlank (m :: inner) = m :: inner := by
    rw [Marks.skipBlank, List.dropWhile_cons_of_neg (by simp [hblank])]
  have hargument : spanWord (m :: inner) = ([], m :: inner) := by
    rw [spanWord, List.takeWhile_cons_of_neg (by simp [hword]),
      List.dropWhile_cons_of_neg (by simp [hword])]
    rfl
  simp [Header.read?, hskip, hargument]

theorem head?_of_ofInterior? {body t : Text} {said : Text × Content}
    (h : ofInterior? ((mark (body ++ t)).take body.length) = some said) :
    body.head? ≠ some '{' := by
  intro hopen
  obtain ⟨rest, rfl⟩ := List.head?_eq_some_iff.1 hopen
  rw [List.cons_append, List.length_cons, mark_open, List.take_succ_cons, ofInterior?,
    read?_open rfl] at h
  cases h

/-- Word characters alone are no construct: there is no comma behind the argument. -/
theorem ofInterior?_of_word {inner : Marks} (h : (Marks.text inner).all Text.isWord) :
    ofInterior? inner = none := by
  have hword : ∀ m ∈ inner, Text.isWord m.char := by
    simpa [Marks.text] using h
  have hall : (spanWord inner.skipBlank).2 = [] := by
    rw [spanWord, List.dropWhile_eq_nil_iff]
    intro m hm
    exact hword m ((List.dropWhile_sublist _).subset hm)
  have hblank : Marks.skipBlank [] = [] := rfl
  simp [ofInterior?, Header.read?, hall, hblank]

/-- A text with an inside is braces around a text. -/
theorem exists_body_of_interior? {source : Text} {inner : Marks}
    (h : interior? (mark source) = some inner) :
    ∃ body, source = '{' :: (body ++ ['}']) ∧ inner = (mark (body ++ ['}'])).take body.length := by
  cases source with
  | nil => cases h
  | cons c t =>
    rw [mark_cons, interior?] at h
    split at h
    · next last hlast =>
      rw [Option.ite_none_right_eq_some, Option.some.injEq] at h
      obtain ⟨⟨rfl, hclose⟩, hinner⟩ := h
      -- the last mark is that of the last character
      obtain ⟨marks, hmarks⟩ := List.getLast?_eq_some_iff.1 hlast
      have htext : t = Marks.text marks ++ ['}'] := by
        rw [← text_mark t, hmarks, Marks.text, List.map_append, ← hclose]
        rfl
      refine ⟨Marks.text marks, by rw [htext], ?_⟩
      rw [← hinner, ← htext, hmarks, List.dropLast_concat, Marks.text, List.length_map,
        List.take_left]
    · cases h

theorem interior?_braces (body : Text) :
    interior? (mark ('{' :: (body ++ ['}']))) = some ((mark (body ++ ['}'])).take body.length) := by
  have hlength : (mark ('{' :: (body ++ ['}']))).length ≤ body.length + 2 := by
    rw [length_mark]
    simp
  have hwhole := interior?_take_braces body []
  rwa [List.take_of_length_le hlength] at hwhole

theorem ofGroup?_eq (pos : Nat) (group : Marks) :
    ofGroup? pos group = ((interior? group).bind ofInterior?).map fun said =>
      ⟨said.1, said.2, group.text, Span.ofLength pos group.length⟩ := by
  rw [ofGroup?]
  cases interior? group with
  | none => rfl
  | some inner => cases hread : ofInterior? inner <;> simp [hread]

/-- A text between braces is read as a construct by what stands between them. -/
theorem ofGroup?_braces (pos : Nat) (body : Text) :
    ofGroup? pos (mark ('{' :: (body ++ ['}']))) =
      (ofInterior? ((mark (body ++ ['}'])).take body.length)).map fun said =>
        ⟨said.1, said.2, '{' :: (body ++ ['}']), Span.ofLength pos (body.length + 2)⟩ := by
  have hlength : ('{' :: (body ++ ['}'])).length = body.length + 2 := by
    simp
  rw [ofGroup?_eq, interior?_braces, Option.bind_some, length_mark, hlength]
  exact congrArg (Option.map · _) (funext fun said => by rw [text_mark])

theorem shift_ofLength (start length : Nat) :
    (Span.ofLength 0 length).shift start = .ok (Span.ofLength start length) := by
  have hbounds : (0 : Int) ≤ ((0 : Nat) : Int) + start ∧
      ((0 : Nat) : Int) + start ≤ ((0 + length : Nat) : Int) + start := by
    omega
  rw [Span.shift, Span.ofLength, Span.ofBounds, dif_pos hbounds]
  simp only [Span.ofLength, Except.ok.injEq, Span.mk.injEq]
  omega

/-- Reading a text as a construct at a position never fails. -/
theorem parse?_eq_ofGroup? (source : Text) (start : Nat) :
    parse? source start = .ok (ofGroup? start (mark source)) := by
  rw [parse?, ofGroup?_eq, ofGroup?_eq]
  cases (interior? (mark source)).bind ofInterior? with
  | none => rfl
  | some said =>
    simp only [Option.map_some, shift_ofLength]
    rfl

theorem parse?_group (body : Text) :
    parse? ('{' :: (body ++ ['}'])) 0 =
      .ok ((ofInterior? ((mark (body ++ ['}'])).take body.length)).map fun said =>
        ⟨said.1, said.2, '{' :: (body ++ ['}']), Span.ofLength 0 (body.length + 2)⟩) := by
  rw [← ofGroup?_braces]
  exact parse?_eq_ofGroup? _ 0

end Parlance.Construct
