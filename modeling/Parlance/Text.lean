import Parlance.Text.Digit
import Parlance.Text.Letter
/-!
Texts are lists of characters: a position is an index, a part of a text is a sublist, and lengths
count code points.
-/

namespace Parlance

abbrev Text := List Char

namespace Text

/-- Fixed wording stands in the middle of a text as it is. -/
instance : Coe String Text := ⟨String.toList⟩

/-- The blanks of Unicode: spaces, line and paragraph ends, and the four separators of ASCII. -/
def isBlank (c : Char) : Bool :=
  let n := c.toNat
  (9 ≤ n && n ≤ 13) || (28 ≤ n && n ≤ 32) || n == 0x85 || n == 0xA0 || n == 0x1680 ||
    (0x2000 ≤ n && n ≤ 0x200A) || n == 0x2028 || n == 0x2029 || n == 0x202F || n == 0x205F ||
    n == 0x3000

/-- The characters of names: letters, numeric characters of any kind and the underscore. -/
def isWord (c : Char) : Bool := isLetter c || isNumeric c || c == '_'

def trimStart (t : Text) : Text := t.dropWhile isBlank

def trimEnd (t : Text) : Text := (t.reverse.dropWhile isBlank).reverse

def trim (t : Text) : Text := trimEnd (trimStart t)

/-- Small letters for the capital letters of ASCII. -/
def toLower (t : Text) : Text := t.map Char.toLower

def toUpper (t : Text) : Text := t.map Char.toUpper

/-- The decimal numeral of a natural number. -/
def ofNat (n : Nat) : Text := Nat.toDigits 10 n

def ofInt : Int → Text
  | .ofNat n => ofNat n
  | .negSucc n => '-' :: ofNat (n + 1)

/-- Fill up on the left to a width; a longer text stays as it is. -/
def padLeft (width : Nat) (fill : Char) (t : Text) : Text :=
  List.replicate (width - t.length) fill ++ t

/-- The number that a run of digits spells, or nothing for an empty run or another character. -/
def digitsValue? : Text → Option Nat
  | [] => none
  | c :: rest => rest.foldl (fun n? d => do return 10 * (← n?) + (← digitValue? d)) (digitValue? c)

/-- Every occurrence of a character gives way to a text. -/
def substitute (c : Char) (replacement : Text) (t : Text) : Text :=
  t.flatMap fun d => if d = c then replacement else [d]

theorem substitute_cons (c : Char) (replacement : Text) (d : Char) (t : Text) :
    substitute c replacement (d :: t) =
      (if d = c then replacement else [d]) ++ substitute c replacement t :=
  rfl

end Text

end Parlance
