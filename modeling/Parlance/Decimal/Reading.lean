import Parlance.Decimal
/-!
Reading decimal numbers. A numeral is an optional sign, digits of any script with at most one
point among them, and optionally an exponent; underscores are dropped wherever they stand, and
blanks around the numeral do not count. The words for infinities and non-numbers go in any case.
-/

namespace Parlance.Decimal

/-- Drop a sign; the answer tells whether it was a minus. -/
def readSign : Text → Bool × Text
  | '-' :: rest => (true, rest)
  | '+' :: rest => (false, rest)
  | t => (false, t)

/-- An integer with an optional sign. -/
def readExponent (t : Text) : Option Int :=
  let (negative, digits) := readSign t
  (Text.digitsValue? digits).map fun n => if negative then -(n : Int) else n

/-- Digits with at most one point; the exponent counts the digits behind it. -/
def readCoefficient (t : Text) : Option (Nat × Int) :=
  let (whole, rest) := t.span (· ≠ '.')
  let fraction := rest.drop 1
  (Text.digitsValue? (whole ++ fraction)).map fun n => (n, -fraction.length)

def readFinite (negative : Bool) (t : Text) : Option Decimal :=
  let (mantissa, rest) := t.span fun c => c ≠ 'e' && c ≠ 'E'
  do
    let (coefficient, exponent) ← readCoefficient mantissa
    let shift ← match rest with
      | [] => some 0
      | _ :: exponent => readExponent exponent
    return .finite negative coefficient (exponent + shift)

/-- The digits that a non-number carries, if any. -/
def readPayload : Text → Option Nat
  | [] => some 0
  | t => Text.digitsValue? t

def readSpecial (negative : Bool) (t : Text) : Option Decimal :=
  match Text.toLower t with
  | 'n' :: 'a' :: 'n' :: rest => (readPayload rest).map (.nan negative false)
  | 's' :: 'n' :: 'a' :: 'n' :: rest => (readPayload rest).map (.nan negative true)
  | t => if t = "inf".toList ∨ t = "infinity".toList then some (.infinite negative) else none

def ofText? (t : Text) : Option Decimal :=
  let (negative, rest) := readSign ((Text.trim t).filter (· ≠ '_'))
  (readSpecial negative rest).or (readFinite negative rest)

end Parlance.Decimal
