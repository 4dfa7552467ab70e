import Parlance.Decimal.Rounding
import Parlance.Fault
import Parlance.Number
import Parlance.Sample.Language
/-!
Patterns of numbers: literal text in front of the digits, the digits themselves, and literal text
behind them. In the digits a zero is a place that is always written, a number sign one that is
written only if needed, commas set the sizes of groups and the last point the fraction. At signs
count significant digits, and the letter E writes a power of ten. Text in single quotes stands for
itself; a percent sign in the literal text counts in hundredths.
-/

namespace Parlance.Sample

/-- Literal text around the digits. -/
structure NumberPattern.Affixes where
  front : Text
  back : Text

/-- How powers of ten are written: whether a plus sign shows, and how many digits at least. -/
structure NumberPattern.Power where
  plus : Bool
  least : Nat

structure NumberPattern where
  positive : NumberPattern.Affixes
  negative : NumberPattern.Affixes
  /-- Whether there is a place for digits at all. -/
  hasDigits : Bool
  /-- Whether the places in front of the point count significant digits. -/
  isSignificant : Bool
  leastInteger : Nat
  mostInteger : Nat
  leastFraction : Nat
  mostFraction : Nat
  /-- Sizes of the group before the point and of all others. -/
  groups : Nat × Nat
  power : Option NumberPattern.Power
  /-- The power of ten that values are multiplied by. -/
  shift : Nat

namespace NumberPattern

/-- Characters that end the text in front of the digits. -/
def endsFront (c : Char) : Bool :=
  c.isDigit || c == '@' || c == '#' || c == '.' || c == ',' || c == '\''

/-- Characters of the digit part. -/
def isDigitPart (c : Char) : Bool :=
  c.isDigit || c == '@' || c == '#' || c == '.' || c == ',' || c == 'E' || c == '+'

/-- The length of the literal text at the head; a quotation counts with its quotes, and a quote that
stays open ends it. -/
def frontLength (t : Text) : Nat :=
  match t with
  | [] => 0
  | c :: rest =>
    if c = '\'' then
      let inside := rest.takeWhile (· ≠ '\'')
      if inside.length < rest.length then
        inside.length + 2 + frontLength (rest.drop (inside.length + 1))
      else 0
    else if endsFront c then 0
    else 1 + frontLength rest
termination_by t.length
decreasing_by all_goals simp only [List.length_drop, List.length_cons]; omega

/-- The three parts of a pattern; the last one ends at a line break. -/
structure Parts where
  front : Text
  digits : Text
  back : Text

def split (t : Text) : Parts :=
  let n := frontLength t
  let rest := t.drop n
  ⟨t.take n, rest.takeWhile isDigitPart, (rest.dropWhile isDigitPart).takeWhile (· ≠ '\n')⟩

/-- Places that are always written and places at all, up to the first other character. -/
def places (t : Text) : Nat × Nat :=
  let run := t.takeWhile fun c => c == '0' || c == '@' || c == '#' || c == ','
  (run.countP (fun c => c == '0' || c == '@'), run.countP (· ≠ ','))

/-- Patterns without commas have groups all the same, of this size. -/
def greatestGroup : Nat := 1000

/-- The sizes of groups: the last run between commas, and the run before it or else the same. -/
def groupSizes (integer : Text) : Nat × Nat :=
  let (last, rest) := integer.reverse.span (· ≠ ',')
  match rest with
  | [] => (greatestGroup, greatestGroup)
  | _ :: rest =>
    let (previous, rest) := rest.span (· ≠ ',')
    (last.length, if rest.isEmpty then last.length else previous.length)

/-- Cut at the last point. -/
def splitPoint (digits : Text) : Text × Text :=
  let (fraction, rest) := digits.reverse.span (· ≠ '.')
  match rest with
  | [] => (digits, [])
  | _ :: integer => (integer.reverse, fraction.reverse)

/-- Hundredths or thousandths if the literal text holds their sign. -/
def shiftOf (literals : List Text) : Nat :=
  if literals.any (·.contains '%') then 2
  else if literals.any (·.contains '‰') then 3
  else 0

/-- Why a number cannot be written. -/
inductive Misfit where
  /-- Significant digits do not go with a point and zeros. -/
  | mixedDigits
  /-- More digits are needed than the working precision has. -/
  | precision
  /-- A fraction of more digits than are looked at. -/
  | longFraction (digits : Nat)

def Misfit.message : Misfit → Text
  | .mixedDigits => "Significant digit patterns can not contain \"@\" or \"0\"".toList
  | .precision => "[<class 'decimal.InvalidOperation'>]".toList
  | .longFraction digits =>
    "Exceeds the limit (" ++ Text.ofNat Decimal.maxDigits ++
      " digits) for integer string conversion: value has " ++ Text.ofNat digits ++
      " digits; use sys.set_int_max_str_digits() to increase the limit"

def Misfit.raised (misfit : Misfit) : Raised :=
  let kind : Raised.Kind := match misfit with
    | .precision => .invalidOperation
    | _ => .value
  ⟨kind, misfit.message⟩

/-- The power of ten that follows the letter E; nothing after it means none. -/
def powerOf (t : Text) : Option Power :=
  match t with
  | [] => none
  | c :: _ => some ⟨c = '+', (places (t.dropWhile (· = '+'))).1⟩

/-- After a semicolon a pattern gives the literal text of negative numbers; without one they have
a minus sign in front. -/
def ofText (t : Text) : Except Misfit NumberPattern :=
  let (first, rest) := t.span (· ≠ ';')
  let parts := split first
  let positive : Affixes := ⟨parts.front, parts.back⟩
  let negative : Affixes :=
    match rest with
    | [] => ⟨'-' :: parts.front, parts.back⟩
    | _ :: second => ⟨(split second).front, (split second).back⟩
  let (digits, power) := parts.digits.span (· ≠ 'E')
  let (integer, fraction) := splitPoint digits
  if digits.contains '@' && digits.contains '.' && digits.contains '0' then .error .mixedDigits
  else .ok
    { positive, negative
      hasDigits := !digits.isEmpty
      isSignificant := t.contains '@'
      leastInteger := (places integer).1
      mostInteger := (places integer).2
      leastFraction := (places fraction).1
      mostFraction := (places fraction).2
      groups := groupSizes integer
      power := powerOf (power.drop 1)
      shift := shiftOf [positive.front, positive.back, negative.front, negative.back] }

/-- Groups of digits from the right, given in reverse. The first size holds for the first group
only; a group of size zero takes all digits that are left. -/
def groupReversed (separator : Char) (first rest : Nat) (digits : Text) : Text :=
  if digits.length ≤ first then digits
  else if first = 0 then digits ++ [separator]
  else digits.take first ++ separator :: groupReversed separator rest rest (digits.drop first)
termination_by digits.length
decreasing_by simp only [List.length_drop]; omega

/-- Digits in groups, with zeros in front up to a number of digits. -/
def integerText (p : NumberPattern) (l : Language) (least : Nat) (digits : Text) : Text :=
  let all := Text.padLeft least '0' digits
  (groupReversed l.groupSeparator p.groups.1 p.groups.2 all.reverse).reverse

/-- The digits behind the point without needless zeros, and the point if any are left. -/
def fractionText (l : Language) (least most : Nat) (fraction : Nat) : Except Misfit Text :=
  let digits := Text.padLeft most '0' (Text.ofNat fraction)
  let kept := ((digits.drop least).reverse.dropWhile (· = '0')).reverse
  if most = 0 then .ok []
  else if least = 0 ∧ Decimal.maxDigits < most then .error (.longFraction most)
  else if least = 0 ∧ kept.isEmpty then .ok []
  else .ok (l.decimalPoint :: digits.take least ++ kept)

/-- A number rounded to at most some places behind the point, with at least some. -/
def fixedText (p : NumberPattern) (l : Language) (least most : Nat) (coefficient : Nat)
    (exponent : Int) : Except Misfit Text :=
  match Decimal.atPlaces? most coefficient exponent with
  | none => .error .precision
  | some rounded => do
    let fraction ← fractionText l least most (rounded % tenTo most)
    return p.integerText l p.leastInteger (Text.ofNat (rounded / tenTo most)) ++ fraction

/-- The exponent of the leading digit; that of zero is zero. -/
def leadingExponent (coefficient : Nat) (exponent : Int) : Int :=
  if coefficient = 0 then 0 else Decimal.adjusted coefficient exponent

/-- A number rounded to its leading digits, as many as there are places in front of the point.
Zeros at the end of a fraction stand only as far as places are always written, counted from the
first digit that is left after the zeros in front. -/
def significantText (p : NumberPattern) (l : Language) (coefficient : Nat) (exponent : Int) :
    Except Misfit Text :=
  let leading := leadingExponent coefficient exponent
  let scale := (p.mostInteger : Int) - 1 - leading
  match Decimal.atPlaces? scale coefficient exponent with
  | none => .error .precision
  | some rounded =>
    let digits := Text.ofNat rounded
    if scale ≤ 0 then .ok (p.integerText l 0 (digits ++ Decimal.zeros (-scale).toNat))
    else
      let integer := digits.take (digits.length - scale.toNat)
      let behind := digits.drop integer.length
      let least := p.leastInteger - integer.length
      let kept := ((behind.drop least).reverse.dropWhile (· = '0')).reverse
      let fraction := Decimal.zeros (-(leading + 1)).toNat ++ behind.take least ++ kept
      .ok (p.integerText l 0 (if integer.isEmpty then ['0'] else integer) ++
        if fraction.isEmpty then [] else l.decimalPoint :: fraction)

/-- A number as one with as many digits in front of the point as are always written, at least one,
times a power of ten. Without places behind the point all digits are written. -/
def powerText (p : NumberPattern) (l : Language) (power : Power) (coefficient : Nat)
    (exponent : Int) : Except Misfit Text := do
  let shown := leadingExponent coefficient exponent - (max 1 p.leastInteger - 1 : Nat)
  let most :=
    if p.mostFraction = 0 then Decimal.fractionDigits coefficient (exponent - shown)
    else p.mostFraction
  let digits ← p.fixedText l p.leastFraction most coefficient (exponent - shown)
  let sign := if shown < 0 then ['-'] else if power.plus then ['+'] else []
  return digits ++ 'E' :: sign ++ p.integerText l power.least (Text.ofNat shown.natAbs)

def digitsText (p : NumberPattern) (l : Language) (coefficient : Nat) (exponent : Int) :
    Except Misfit Text :=
  match p.power with
  | some power => p.powerText l power coefficient exponent
  | none =>
    if p.isSignificant then p.significantText l coefficient exponent
    else p.fixedText l p.leastFraction p.mostFraction coefficient exponent

/-- Take the quotes off quoted text; two quotes side by side are a quote, and a quote that stays
open is kept. -/
def unquote (t : Text) : Text :=
  match t with
  | [] => []
  | c :: rest =>
    if c = '\'' then
      let inside := rest.takeWhile (· ≠ '\'')
      if inside.length < rest.length then
        (if inside.isEmpty then ['\''] else inside) ++ unquote (rest.drop (inside.length + 1))
      else t
    else c :: unquote rest
termination_by t.length
decreasing_by all_goals simp only [List.length_drop, List.length_cons]; omega

/-- Write a decimal number. The sign shows even where all digits are zeros. -/
def write (p : NumberPattern) (l : Language) (negative : Bool) (coefficient : Nat)
    (exponent : Int) : Except Misfit Text := do
  let (coefficient, exponent) := Decimal.toWorkingDigits coefficient (exponent + p.shift)
  let digits ← p.digitsText l coefficient exponent
  let affixes := if negative then p.negative else p.positive
  return unquote (affixes.front ++ (if p.hasDigits then digits else []) ++ affixes.back)

/-- Write a finite number; the others have no digits to write. -/
def format (p : NumberPattern) (l : Language) (n : Number) : Except Misfit Text :=
  match n.toDecimal with
  | .finite negative coefficient exponent => p.write l negative coefficient exponent
  | _ => .error .precision

end NumberPattern

end Parlance.Sample
