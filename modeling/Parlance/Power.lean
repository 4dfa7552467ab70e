/-!
Powers of ten and of two, the units of decimal and of binary places.
-/

namespace Parlance

def tenTo (places : Nat) : Nat := Nat.pow 10 places

def twoTo (places : Nat) : Nat := Nat.pow 2 places

end Parlance
