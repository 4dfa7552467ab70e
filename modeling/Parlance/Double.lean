import Parlance.Decimal.Rounding
/-!
Binary floating-point numbers of 53 digits, read from decimal numbers and written back. A finite
number is a mantissa below 2^53 times a power of two not below 2^-1074. Reading rounds to the
nearest number, a tie going to the even mantissa; writing takes the fewest digits that read back,
and of those the nearest.
-/

namespace Parlance

inductive Double where
  | finite (negative : Bool) (mantissa : Nat) (exponent : Int)
  | infinite (negative : Bool)
  | nan
  deriving DecidableEq

namespace Double

def precision : Nat := 53

def leastExponent : Int := -1074

/-- Above this binary exponent of the leading digit a number is infinite. -/
def greatestExponent : Int := 1023

/-- The quotient of two numbers times a power of two, as a fraction. -/
def scale (num den : Nat) (shift : Int) : Nat × Nat :=
  if 0 ≤ shift then (num * twoTo shift.toNat, den) else (num, den * twoTo (-shift).toNat)

/-- The binary exponent of the leading digit of a positive quotient. -/
def leading (num den : Nat) : Int :=
  let guess : Int := (Nat.log2 num : Int) - Nat.log2 den
  let (n, d) := scale num den (-guess)
  if d ≤ n then guess else guess - 1

/-- The nearest number to a positive quotient. A mantissa rounded up to 2^53 goes on as half of it
with the next exponent. -/
def ofQuotient (negative : Bool) (num den : Nat) : Double :=
  let exponent := max (leading num den - (precision - 1 : Nat)) leastExponent
  let (n, d) := scale num den (-exponent)
  let rounded := roundHalfEven n d
  let (mantissa, exponent) :=
    if rounded = twoTo precision then (twoTo (precision - 1), exponent + 1) else (rounded, exponent)
  if greatestExponent < exponent + (precision - 1 : Nat) then .infinite negative
  else .finite negative mantissa exponent

/-- Decimal exponents beyond these bounds leave no doubt about the answer. -/
def farExponent : Int := 400

def ofDecimal : Decimal → Double
  | .nan .. => .nan
  | .infinite negative => .infinite negative
  | .finite negative coefficient exponent =>
    if coefficient = 0 ∨ Decimal.adjusted coefficient exponent < -farExponent then
      .finite negative 0 leastExponent
    else if farExponent < Decimal.adjusted coefficient exponent then .infinite negative
    else if 0 ≤ exponent then ofQuotient negative (coefficient * tenTo exponent.toNat) 1
    else ofQuotient negative coefficient (tenTo (-exponent).toNat)

def isFinite : Double → Bool
  | .finite .. => true
  | _ => false

/-- The integer that a number is, if it is one. -/
def toInt? : Double → Option Int
  | .finite negative mantissa exponent =>
    let signed (n : Nat) : Int := if negative then -(n : Int) else n
    if 0 ≤ exponent then some (signed (mantissa * twoTo exponent.toNat))
    else if mantissa % twoTo (-exponent).toNat = 0 then
      some (signed (mantissa / twoTo (-exponent).toNat))
    else none
  | _ => none

/-- The position of the leading decimal digit: the quotient is below ten to this power and not
below the power before. -/
def decimalPlace (num den : Nat) : Int :=
  if den ≤ num then (Decimal.digitCount (num / den) : Int)
  else 1 - (Decimal.digitCount ((den - 1) / num) : Int)

/-- The multiples of a power of ten just below and just above a quotient, the nearer first; of two
equally near ones the even one comes first. -/
def neighbours (num den : Nat) (exponent : Int) : List Nat :=
  let (n, d) := if 0 ≤ exponent then (num, den * tenTo exponent.toNat)
    else (num * tenTo (-exponent).toNat, den)
  let below := n / d
  if n % d = 0 then [below]
  else if roundHalfEven n d = below then [below, below + 1] else [below + 1, below]

/-- The nearest numeral of at most the given number of digits that reads back. -/
def withDigits (value : Double) (num den : Nat) (count : Nat) : Option (Nat × Int) :=
  let exponent := decimalPlace num den - count
  ((neighbours num den exponent).find? fun c =>
    ofDecimal (.finite false c exponent) = value).map (·, exponent)

/-- Enough digits for any number to read back. -/
def maxDigits : Nat := 17

/-- The fewest digits that read back, as coefficient and exponent. -/
def shortest (mantissa : Nat) (exponent : Int) : Nat × Int :=
  if mantissa = 0 then (0, 0)
  else
    let (num, den) := scale mantissa 1 exponent
    match (List.range' 1 maxDigits).findSome?
        (withDigits (.finite false mantissa exponent) num den) with
    | some (coefficient, exponent) => Decimal.stripZeros maxDigits coefficient exponent
    | none => (num / den, 0)

/-- The decimal number that is written for a number. -/
def toDecimal : Double → Decimal
  | .nan => .nan false false 0
  | .infinite negative => .infinite negative
  | .finite negative mantissa exponent =>
    let (coefficient, exponent) := shortest mantissa exponent
    .finite negative coefficient exponent

/-- Digits with a point and at least one digit behind it, from 10^-4 up to 10^16; beyond, one digit
in front of the point and an exponent of at least two digits. -/
def digits (coefficient : Nat) (exponent : Int) : Text :=
  let ds := Text.ofNat coefficient
  let place := ds.length + exponent
  if -4 < place ∧ place ≤ 16 then
    Decimal.placePoint ds place ++ (if (ds.length : Int) ≤ place then ['.', '0'] else [])
  else
    Decimal.placePoint ds 1 ++ 'e' :: (if place < 1 then '-' else '+') ::
      Text.padLeft 2 '0' (Text.ofNat (place - 1).natAbs)

/-- The text of a number that reads back as it. -/
def written (x : Double) : Text :=
  match x with
  | .nan => "nan"
  | .infinite negative => Decimal.sign negative ++ "inf"
  | .finite negative mantissa exponent =>
    let (coefficient, exponent) := shortest mantissa exponent
    Decimal.sign negative ++ digits coefficient exponent

end Double

end Parlance
