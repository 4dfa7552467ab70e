import Parlance.Text
/-!
Brace groups by counting: an opening brace adds one to the depth, a closing brace takes one away,
and a group ends where a closing brace brings the depth back to zero.
-/

namespace Parlance.Brace

/-- Count on from a depth at a position; the answer is the position after the closing brace that
brings the depth to zero. -/
def closeFrom (depth : Int) (pos : Nat) : Text → Option Nat
  | [] => none
  | c :: rest =>
    if c = '{' then closeFrom (depth + 1) (pos + 1) rest
    else if c = '}' then
      if depth = 1 then some (pos + 1) else closeFrom (depth - 1) (pos + 1) rest
    else closeFrom depth (pos + 1) rest

/-- The end of the group that opens at a position, or nothing for a group that never closes. -/
def close? (pattern : Text) (start : Nat) : Option Nat :=
  closeFrom 0 start (pattern.drop start)

end Parlance.Brace
