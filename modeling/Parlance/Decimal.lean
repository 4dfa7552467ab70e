import Parlance.Power
import Parlance.Text
/-!
Decimal numbers, exact and with their exponent as it was written, so that 1.0, 1.00 and 10E-1 are
three numerals of one value. Beside the finite ones there are infinities and non-numbers, which
may signal and may carry digits of their own.

A numeral is bounded when its leading digit stands fewer than 4300 places from the point; only
bounded numerals are written out in full.
-/

namespace Parlance

inductive Decimal where
  | finite (negative : Bool) (coefficient : Nat) (exponent : Int)
  | infinite (negative : Bool)
  | nan (negative signaling : Bool) (payload : Nat)
  deriving DecidableEq

namespace Decimal

/-- Digits that a numeral may have in front of the point or behind it. -/
def maxDigits : Nat := 4300

def isFinite : Decimal → Bool
  | .finite .. => true
  | _ => false

def isNegative : Decimal → Bool
  | .finite negative _ _ | .infinite negative | .nan negative _ _ => negative

def digitCount (coefficient : Nat) : Nat := (Text.ofNat coefficient).length

/-- The exponent of the leading digit. -/
def adjusted (coefficient : Nat) (exponent : Int) : Int :=
  exponent + (digitCount coefficient - 1 : Nat)

def isBounded : Decimal → Bool
  | .finite _ coefficient exponent => (adjusted coefficient exponent).natAbs < maxDigits
  | _ => false

def sign (negative : Bool) : Text := if negative then ['-'] else []

def zeros (n : Nat) : Text := List.replicate n '0'

/-- Put a point behind the given number of digits; missing digits on either side are zeros. -/
def placePoint (digits : Text) (place : Int) : Text :=
  if place ≤ 0 then '0' :: '.' :: zeros (-place).toNat ++ digits
  else if digits.length ≤ place.toNat then digits ++ zeros (place.toNat - digits.length)
  else digits.take place.toNat ++ '.' :: digits.drop place.toNat

/-- The texts of infinities and non-numbers; finite numbers are written by a function. -/
def write (finite : Nat → Int → Text) : Decimal → Text
  | .finite negative coefficient exponent => sign negative ++ finite coefficient exponent
  | .infinite negative => sign negative ++ "Infinity"
  | .nan negative signaling payload =>
    sign negative ++ (if signaling then "sNaN" else "NaN") ++
      (if payload = 0 then [] else Text.ofNat payload)

/-- Digits and a point without an exponent. A zero with a positive exponent is a plain zero. -/
def fixedDigits (coefficient : Nat) (exponent : Int) : Text :=
  if exponent ≤ 0 then
    placePoint (Text.ofNat coefficient) ((Text.ofNat coefficient).length + exponent)
  else if coefficient = 0 then ['0']
  else Text.ofNat coefficient ++ zeros exponent.toNat

/-- Digits with a point while that takes at most five zeros in front of the first digit and none
behind the last; else one digit, the point, the other digits and an exponent. -/
def scientificDigits (coefficient : Nat) (exponent : Int) : Text :=
  let digits := Text.ofNat coefficient
  let place := digits.length + exponent
  if exponent ≤ 0 ∧ -6 < place then placePoint digits place
  else
    placePoint digits 1 ++
      (if place = 1 then []
      else 'E' :: (if 1 < place then ['+'] else []) ++ Text.ofInt (place - 1))

def fixed : Decimal → Text := write fixedDigits

def scientific : Decimal → Text := write scientificDigits

end Decimal

end Parlance
