import Parlance.Brace.Index
/-!
Cutting a marked pattern into pieces. The cut walks from left to right and asks, at every opening
brace that begins no escape, whether something stands there; what is found becomes a piece of its
own, and everything between two finds is literal text.
-/

namespace Parlance.Brace

inductive Piece (α : Type u) where
  | literal (text : Text)
  | found (a : α)

namespace Piece

variable {α : Type u}

/-- Put text in front of pieces; it joins a literal piece that comes first. -/
def prepend (t : Text) : List (Piece α) → List (Piece α)
  | .literal u :: rest => .literal (t ++ u) :: rest
  | rest => .literal t :: rest

/-- The pieces of marks that start at a position. A find tells how many characters it takes; it
takes at least the opening brace. -/
def cut (find : Nat → Marks → Option (α × Nat)) (pos : Nat) (ms : Marks) : List (Piece α) :=
  match ms with
  | [] => []
  | m :: rest =>
    if m.char = '{' then
      if Marks.startsEscape (m :: rest) then
        prepend (Marks.text (m :: rest.take 1)) (cut find (pos + 2) (rest.drop 1))
      else
        match find pos (m :: rest) with
        | some (a, n) => .found a :: cut find (pos + max n 1) (rest.drop (n - 1))
        | none => prepend [m.char] (cut find (pos + 1) rest)
    else prepend [m.char] (cut find (pos + 1) rest)
termination_by ms.length
decreasing_by all_goals simp only [List.length_drop, List.length_cons]; omega

/-- The text of a piece, where a find is written out by a function. -/
def text (write : α → Text) : Piece α → Text
  | .literal t => t
  | .found a => write a

theorem flatMap_text_prepend (write : α → Text) (t : Text) (pieces : List (Piece α)) :
    (prepend t pieces).flatMap (text write) = t ++ pieces.flatMap (text write) := by
  match pieces with
  | [] => simp [prepend, text]
  | .literal u :: rest => simp [prepend, text]
  | .found a :: rest => simp [prepend, text]

end Piece

end Parlance.Brace
