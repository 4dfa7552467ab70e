import Parlance.Double
/-!
Arithmetic of binary floating-point numbers: rounding to decimal places, and multiples. Only the
magnitude of finite numbers is looked at.
-/

namespace Parlance.Double

/-- A finite magnitude as numerator and denominator. -/
def ratio : Double → Nat × Nat
  | .finite _ mantissa exponent => scale mantissa 1 exponent
  | _ => (0, 1)

/-- The nearest number to a quotient. -/
def ofRatio (num den : Nat) : Double :=
  if num = 0 then .finite false 0 leastExponent else ofQuotient false num den

/-- At so many decimal places every number is exact. -/
def exactPlaces : Nat := 323

/-- The nearest number to the nearest decimal number of some places; a tie goes to the even
digit. -/
def roundTo (places : Nat) (x : Double) : Double :=
  if exactPlaces < places then x
  else
    let (num, den) := x.ratio
    ofRatio (roundHalfEven (num * tenTo places) den) (tenTo places)

/-- A multiple, where the factor is rounded first; nothing if it is too great. -/
def times? (n : Nat) (x : Double) : Option Double :=
  match ofRatio n 1 with
  | .finite negative mantissa exponent =>
    let (num, den) := (Double.finite negative mantissa exponent).ratio
    some (ofRatio (x.ratio.1 * num) (x.ratio.2 * den))
  | _ => none

def floor (x : Double) : Nat := x.ratio.1 / x.ratio.2

end Parlance.Double
