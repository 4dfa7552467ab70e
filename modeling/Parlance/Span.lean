/-!
Half-open ranges of positions in a pattern.
-/

namespace Parlance

structure Span where
  start : Nat
  stop : Nat
  start_le_stop : start ≤ stop

namespace Span

/-- A range that starts before zero or ends before it starts. -/
structure Invalid where
  start : Int
  stop : Int

def Invalid.message (e : Invalid) : String :=
  "Invalid span [" ++ toString e.start ++ ", " ++ toString e.stop ++ ")"

def ofBounds (start stop : Int) : Except Invalid Span :=
  if h : 0 ≤ start ∧ start ≤ stop then
    .ok ⟨start.toNat, stop.toNat, by omega⟩
  else .error ⟨start, stop⟩

/-- The range of a given length at a position. -/
def ofLength (start length : Nat) : Span := ⟨start, start + length, by omega⟩

def shift (s : Span) (offset : Int) : Except Invalid Span :=
  ofBounds (s.start + offset) (s.stop + offset)

end Span

end Parlance
