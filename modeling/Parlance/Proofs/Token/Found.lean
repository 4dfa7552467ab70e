import Parlance.Proofs.Brace.Scan
import Parlance.Token
/-!
What a token at an opening brace can be. The relation Found lists the cases with everything that
holds in them, in terms of the pattern's text; found_of_find says that there are no others.
-/

namespace Parlance

open Brace

namespace Construct

theorem interior?_cons_append {first last : Mark} (hfirst : first.char = '{')
    (hlast : last.char = '}') (inner : Marks) :
    interior? (first :: (inner ++ [last])) = some inner := by
  rw [interior?, List.getLast?_concat]
  simp only [hfirst, hlast, List.dropLast_concat, and_self, if_true]

/-- The inside of a text between braces. -/
theorem interior?_take_braces (body rest : Text) :
    interior? ((mark ('{' :: (body ++ '}' :: rest))).take (body.length + 2)) =
      some ((mark (body ++ '}' :: rest)).take body.length) := by
  have hgroup : (mark (body ++ '}' :: rest)).take (body.length + 1) =
      (mark (body ++ '}' :: rest)).take body.length ++ [⟨'}', none⟩] := by
    rw [List.take_add, mark_drop, List.drop_left, mark_cons '}']
    rfl
  rw [mark_open, List.take_succ_cons, hgroup]
  exact interior?_cons_append rfl rfl _

/-- The inside of a group of a marked pattern. -/
theorem interior?_take_mark {t : Text} {n : Nat} (h : close? ('{' :: t) 0 = some (n + 2)) :
    interior? ((mark ('{' :: t)).take (n + 2)) = some ((mark t).take n) := by
  obtain ⟨body, rest, rfl, hn⟩ := closing_of_close? h
  obtain rfl : n = body.length := by omega
  exact interior?_take_braces body rest

end Construct

namespace Token

/-- The tokens that an opening brace at a position can begin, when a text follows it, and the number
of characters that they take. -/
inductive Found (pos : Nat) (t : Text) : Token → Nat → Prop where
  | unbalanced (hclose : close? ('{' :: t) 0 = none) : Found pos t (.junk .unbalanced pos) 1
  | construct {body rest argument : Text} {content : Construct.Content}
      (ht : t = body ++ '}' :: rest) (hclose : close? ('{' :: t) 0 = some (body.length + 2))
      (hread : Construct.ofInterior? ((mark t).take body.length) = some (argument, content)) :
      Found pos t (.construct ⟨argument, content, '{' :: (body ++ ['}']),
        Span.ofLength pos (body.length + 2)⟩) (body.length + 2)
  | placeholder {name rest : Text}
      (ht : t = name ++ '}' :: rest) (hclose : close? ('{' :: t) 0 = some (name.length + 2))
      (hread : Construct.ofInterior? ((mark t).take name.length) = none)
      (hname : name ≠ []) (hword : name.all Text.isWord) :
      Found pos t (.placeholder name (Span.ofLength pos (name.length + 2))) (name.length + 2)
  | malformed {body rest : Text}
      (ht : t = body ++ '}' :: rest) (hclose : close? ('{' :: t) 0 = some (body.length + 2))
      (hread : Construct.ofInterior? ((mark t).take body.length) = none)
      (hname : name? ((mark t).take body.length) = none)
      (hresembles : Construct.resembles ((mark t).take body.length)) :
      Found pos t (.junk (.malformed (excerpt ('{' :: (body ++ ['}'])))) pos) 1

section Reading

variable {pos : Nat} {t body rest : Text}

/-- The inside of a group is a name if it holds word characters and nothing else. -/
theorem name?_take_mark (ht : t = body ++ '}' :: rest) :
    name? ((mark t).take body.length) =
      if body ≠ [] ∧ body.all Text.isWord then some body else none := by
  have htext : Marks.text ((mark t).take body.length) = body := by
    rw [text_take_mark, ht, List.take_left]
  simp only [name?, htext]
  cases body <;> simp

/-- At a brace that never closes there is no more than that brace. -/
theorem find_of_unclosed (hclose : close? ('{' :: t) 0 = none) :
    find pos (mark ('{' :: t)) = some (.junk .unbalanced pos, 1) := by
  rw [find, mark_open, List.head?_cons, Option.bind_some, hclose]

/-- What is found at a brace that closes hangs on the inside of its group. -/
theorem find_of_closed (ht : t = body ++ '}' :: rest)
    (hclose : close? ('{' :: t) 0 = some (body.length + 2)) :
    find pos (mark ('{' :: t)) =
      match Construct.ofInterior? ((mark t).take body.length) with
      | some (argument, content) =>
        some (.construct ⟨argument, content, '{' :: (body ++ ['}']),
          Span.ofLength pos (body.length + 2)⟩, body.length + 2)
      | none =>
        match name? ((mark t).take body.length) with
        | some name =>
          some (.placeholder name (Span.ofLength pos (body.length + 2)), body.length + 2)
        | none =>
          if Construct.resembles ((mark t).take body.length) then
            some (.junk (.malformed (excerpt ('{' :: (body ++ ['}'])))) pos, 1)
          else none := by
  have hreach : (mark ('{' :: t)).head?.bind Mark.reach = some (body.length + 2) := by
    rw [mark_open, List.head?_cons, Option.bind_some, hclose]
  have hgroup : Marks.text ((mark ('{' :: t)).take (body.length + 2)) = '{' :: (body ++ ['}']) := by
    rw [text_take_mark, ht, take_group]
  rw [find, hreach]
  simp only [Construct.interior?_take_mark hclose, Option.bind_eq_bind, Option.bind_some, hgroup]
  cases Construct.ofInterior? ((mark t).take body.length) with
  | some pair => rfl
  | none =>
    cases name? ((mark t).take body.length) with
    | some name => rfl
    | none => rfl

end Reading

theorem found_of_find {pos n : Nat} {t : Text} {token : Token}
    (h : find pos (mark ('{' :: t)) = some (token, n)) : Found pos t token n := by
  cases hclose : close? ('{' :: t) 0 with
  | none =>
    rw [find_of_unclosed hclose, Option.some.injEq, Prod.mk.injEq] at h
    rw [← h.1, ← h.2]
    exact .unbalanced hclose
  | some m =>
    obtain ⟨body, rest, ht, rfl⟩ := closing_of_close? hclose
    rw [find_of_closed ht hclose] at h
    split at h
    · next argument content hread =>
      rw [Option.some.injEq, Prod.mk.injEq] at h
      rw [← h.1, ← h.2]
      exact .construct ht hclose hread
    · next hread =>
      split at h
      · next name hname =>
        rw [name?_take_mark ht, Option.ite_none_right_eq_some, Option.some.injEq] at hname
        obtain ⟨⟨hne, hword⟩, rfl⟩ := hname
        rw [Option.some.injEq, Prod.mk.injEq] at h
        rw [← h.1, ← h.2]
        exact .placeholder ht hclose hread hne hword
      · next hname =>
        rw [Option.ite_none_right_eq_some, Option.some.injEq, Prod.mk.injEq] at h
        rw [← h.2.1, ← h.2.2]
        exact .malformed ht hclose hread hname h.1

end Token

end Parlance
