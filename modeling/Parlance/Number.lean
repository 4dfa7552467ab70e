import Parlance.Decimal.Reading
import Parlance.Double
import Parlance.Fault
/-!
Numbers: integers, doubles and decimals. A number is usable when it is bounded: an integer of at
most 4300 digits, a finite double, a bounded decimal. Texts are read as an integer if they spell
one and as a decimal otherwise; every usable number is written without grouping and exponent.
-/

namespace Parlance

inductive Number where
  | integer (n : Int)
  | double (x : Double)
  | decimal (d : Decimal)
  deriving DecidableEq

namespace Number

/-- The decimal number that is written for a number. -/
def toDecimal : Number → Decimal
  | .integer n => .finite (n < 0) n.natAbs 0
  | .double x => x.toDecimal
  | .decimal d => d

def isBoundedInt (n : Int) : Bool := n.natAbs < tenTo Decimal.maxDigits

def isBounded : Number → Bool
  | .integer n => isBoundedInt n
  | .double x => x.isFinite
  | .decimal d => d.isBounded

/-- Digits of any script with single underscores between them, as bare digits. -/
def bareDigits? : Text → Option Text
  | [] => none
  | [c] => if Text.isDigit c then some [c] else none
  | c :: '_' :: rest => if Text.isDigit c then (bareDigits? rest).map (c :: ·) else none
  | c :: rest => if Text.isDigit c then (bareDigits? rest).map (c :: ·) else none

/-- An integer numeral with an optional sign; leading zeros count towards the digit limit. -/
def readInteger? (t : Text) : Option Int := do
  let (negative, rest) := Decimal.readSign t
  let digits ← bareDigits? rest
  if digits.length ≤ Decimal.maxDigits then
    let n ← Text.digitsValue? digits
    return if negative then -(n : Int) else n
  else none

/-- The number that a text spells, blanks around it aside, if it is usable. -/
def ofText? (t : Text) : Option Number :=
  let number := match readInteger? (Text.trim t) with
    | some n => some (Number.integer n)
    | none => (Decimal.ofText? t).map Number.decimal
  number.filter isBounded

/-- The digits of an integer, if there are not too many. -/
def integerText (n : Int) : Except Fault Text :=
  if isBoundedInt n then .ok (Text.ofInt n) else .error .oversizedNumeral

/-- A double as an integer if it is one, else as the decimal that is written for it. -/
def doubleText (x : Double) : Text :=
  match x.toInt? with
  | some n => Text.ofInt n
  | none => x.toDecimal.fixed

/-- Digits with a point where there is a fraction, and no exponent. -/
def text : Number → Except Fault Text
  | .integer n => integerText n
  | .double x => .ok (doubleText x)
  | .decimal d => .ok d.fixed

end Number

end Parlance
