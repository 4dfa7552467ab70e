import Parlance.Decimal
import Parlance.Rounding
/-!
Decimal arithmetic with 28 digits: rounding to the working precision, and rounding to a number of
places behind the point, which fails when the answer has more digits than that.
-/

namespace Parlance.Decimal

def workingDigits : Nat := 28

/-- Round to the working precision. A coefficient that rounds up to one more digit drops its last
zero. -/
def toWorkingDigits (coefficient : Nat) (exponent : Int) : Nat × Int :=
  let excess := digitCount coefficient - workingDigits
  if excess = 0 then (coefficient, exponent)
  else
    let rounded := roundHalfEven coefficient (tenTo excess)
    if rounded = tenTo workingDigits then (rounded / 10, exponent + excess + 1)
    else (rounded, exponent + excess)

/-- The coefficient at a given number of places; places below zero are powers of ten. -/
def atPlaces (places : Int) (coefficient : Nat) (exponent : Int) : Nat :=
  if 0 ≤ exponent + places then coefficient * tenTo (exponent + places).toNat
  else roundHalfEven coefficient (tenTo (-(exponent + places)).toNat)

/-- The coefficient at a given number of places, if it fits the working precision. -/
def atPlaces? (places : Int) (coefficient : Nat) (exponent : Int) : Option Nat :=
  let rounded := atPlaces places coefficient exponent
  if rounded < tenTo workingDigits then some rounded else none

/-- Take zeros off the end of the digits. The fuel bounds their number. -/
def stripZeros : Nat → Nat → Int → Nat × Int
  | 0, coefficient, exponent => (coefficient, exponent)
  | fuel + 1, coefficient, exponent =>
    if coefficient ≠ 0 ∧ coefficient % 10 = 0 then stripZeros fuel (coefficient / 10) (exponent + 1)
    else (coefficient, exponent)

/-- How many digits stand behind the point, zeros at the end aside. -/
def fractionDigits (coefficient : Nat) (exponent : Int) : Nat :=
  if coefficient = 0 then 0
  else (-(stripZeros (digitCount coefficient) coefficient exponent).2).toNat

end Parlance.Decimal
