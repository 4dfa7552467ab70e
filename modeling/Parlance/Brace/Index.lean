import Parlance.Text
/-!
The brace pairs of a pattern, found in one pass from its end: a closing brace waits until an
opening brace to its left takes it. Every brace counts, also one of an escape; escapes matter only
where a group is looked for (nextGroup?).

A marked pattern is a list, so a suffix of it is the marked suffix of the pattern.
-/

namespace Parlance.Brace

/-- A character of a pattern; an opening brace that closes knows the length of its group. -/
structure Mark where
  char : Char
  reach : Option Nat
  deriving DecidableEq

abbrev Marks := List Mark

/-- What the pass from the right carries: the marks so far and their number, and for every closing
brace that waits, the nearest first, the number of characters after it. -/
structure Pass where
  marks : Marks
  waiting : List Nat
  length : Nat

namespace Pass

def start : Pass := ⟨[], [], 0⟩

def step (c : Char) (p : Pass) : Pass :=
  if c = '{' then
    match p.waiting with
    | [] => ⟨⟨c, none⟩ :: p.marks, [], p.length + 1⟩
    | after :: waiting => ⟨⟨c, some (p.length + 1 - after)⟩ :: p.marks, waiting, p.length + 1⟩
  else if c = '}' then ⟨⟨c, none⟩ :: p.marks, p.length :: p.waiting, p.length + 1⟩
  else ⟨⟨c, none⟩ :: p.marks, p.waiting, p.length + 1⟩

end Pass

/-- Mark every opening brace with the length of its group. -/
def mark (pattern : Text) : Marks := (pattern.foldr Pass.step Pass.start).marks

namespace Marks

def text (ms : Marks) : Text := ms.map Mark.char

/-- The marks from one position to another. -/
def slice (ms : Marks) (start stop : Nat) : Marks := (ms.drop start).take (stop - start)

/-- The end of the group that opens at a position. -/
def endOf? (ms : Marks) (pos : Nat) : Option Nat :=
  (ms[pos]?.bind Mark.reach).map (pos + ·)

/-- Two opening braces side by side stand for themselves. -/
def startsEscape : Marks → Bool
  | first :: second :: _ => first.char = '{' && second.char = '{'
  | _ => false

/-- The first group at or after a position, as start and end: braces of an escape open none, and
a brace that never closes opens none. -/
def nextFrom (pos : Nat) (ms : Marks) : Option (Nat × Nat) :=
  match ms with
  | [] => none
  | m :: rest =>
    if m.char = '{' then
      if startsEscape (m :: rest) then nextFrom (pos + 2) (rest.drop 1)
      else
        match m.reach with
        | some n => some (pos, pos + n)
        | none => nextFrom (pos + 1) rest
    else nextFrom (pos + 1) rest
termination_by ms.length
decreasing_by all_goals simp only [List.length_drop, List.length_cons]; omega

def nextGroup? (ms : Marks) (pos : Nat) : Option (Nat × Nat) := nextFrom pos (ms.drop pos)

def skipBlank (ms : Marks) : Marks := ms.dropWhile (Text.isBlank ·.char)

end Marks

/-- Marking changes no character. -/
theorem text_mark (pattern : Text) : (mark pattern).text = pattern := by
  suffices h : ∀ t : Text, (t.foldr Pass.step Pass.start).marks.map Mark.char = t from h pattern
  intro t
  induction t with
  | nil => rfl
  | cons c t ih =>
    rw [List.foldr_cons, Pass.step]
    split
    · split <;> simp [ih]
    · split <;> simp [ih]

end Parlance.Brace
