/-!
Sets of characters written as closed ranges of code points. The ranges of a table rise and do not
touch, so a search may stop at the first range that begins above the character.
-/

namespace Parlance

abbrev RangeTable := List (Nat × Nat)

namespace RangeTable

def contains : RangeTable → Nat → Bool
  | [], _ => false
  | (low, high) :: rest, n => if n < low then false else n ≤ high || contains rest n

end RangeTable

end Parlance
