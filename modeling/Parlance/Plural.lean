import Parlance.Number
import Parlance.Word
/-!
Plural and ordinal categories. They hang on the value of a number alone: counting knows zero, one,
two and other; ranks go by the last digit except for 11, 12 and 13. The last two digits of a decimal
are taken from the digits of its coefficient.
-/

namespace Parlance.Plural

inductive Category where
  | zero
  | one
  | two
  | few
  | other
  deriving DecidableEq

namespace Category

def all : List Category := [.zero, .one, .two, .few, .other]

def name : Category → String
  | .zero => "zero"
  | .one => "one"
  | .two => "two"
  | .few => "few"
  | .other => "other"

def ofName (word : Text) : Except UnknownWord Category := ofWord "PluralCategory" all name word

end Category

/-- The number that the last two of some digits spell; a digit that is not there is a zero. -/
def spellLastTwo (digits : Text) : Nat :=
  let digit (place : Option Char) : Nat := (place.bind Text.digitValue?).getD 0
  digit digits.dropLast.getLast? * 10 + digit digits.getLast?

/-- The last two digits of a decimal if it is whole: zeros are put behind the digits of the
coefficient, or as many digits are cut off as stand behind the point. -/
def lastTwoDigits (coefficient : Nat) (exponent : Int) : Option Nat :=
  let digits := Text.ofNat coefficient
  if 2 ≤ exponent then some 0
  else if 0 < exponent then some (spellLastTwo (digits ++ Decimal.zeros exponent.toNat))
  else if exponent < 0 then
    let point := digits.length - (-exponent).toNat
    if (digits.drop point).any (· ≠ '0') then none
    else some (spellLastTwo (digits.take point))
  else some (spellLastTwo digits)

/-- The last two digits of a whole number, whatever its sign. -/
def wholeRemainder : Number → Option Nat
  | .integer n => some (n.natAbs % 100)
  | .double x => x.toInt?.map fun n => n.natAbs % 100
  | .decimal (.finite _ coefficient exponent) => lastTwoDigits coefficient exponent
  | .decimal _ => none

/-- Whether a whole decimal with a positive coefficient is at most two. Where there are digits
behind the point, they are fewer than the coefficient has. -/
def atMostTwo (coefficient : Nat) (exponent : Int) : Bool :=
  if 0 ≤ exponent then exponent = 0 && coefficient ≤ 2
  else coefficient ≤ 2 * tenTo (-exponent).toNat

/-- Whether a whole number is neither negative nor above two. A zero may carry a minus sign. -/
def isSmall : Number → Bool
  | .integer n => 0 ≤ n && n ≤ 2
  | .double x =>
    match x.toInt? with
    | some n => 0 ≤ n && n ≤ 2
    | none => false
  | .decimal (.finite negative coefficient exponent) =>
    coefficient = 0 || (!negative && atMostTwo coefficient exponent)
  | .decimal _ => false

/-- The category of a count. -/
def cardinal (n : Number) : Category :=
  match wholeRemainder n with
  | none => .other
  | some remainder =>
    if !isSmall n then .other
    else if remainder = 0 then .zero
    else if remainder = 1 then .one
    else .two

/-- The category of a rank. -/
def ordinal (n : Number) : Category :=
  match wholeRemainder n with
  | none => .other
  | some remainder =>
    if 11 ≤ remainder ∧ remainder ≤ 13 then .other
    else if remainder % 10 = 1 then .one
    else if remainder % 10 = 2 then .two
    else if remainder % 10 = 3 then .few
    else .other

/-- The label that stands for all labels that are not there. -/
def otherLabel : Text := "other".toList

/-- The form under a label, or else the one under the label for all others. -/
def select {α : Type u} (forms : List (Text × α)) (label : Text) : Option α :=
  (forms.lookup label).or (forms.lookup otherLabel)

/-- The form for a category, or nothing at all. -/
def form (category : Category) (forms : List (Text × Text)) : Text :=
  (select forms category.name.toList).getD []

end Parlance.Plural
