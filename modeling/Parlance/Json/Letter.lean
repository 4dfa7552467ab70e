import Parlance.Text.Quoted
/-!
Letters of texts in documents. An escape may give one half of a pair without the other; such a half
has a number but is no character, and a text with halves in it is none that a file can hold.
-/

namespace Parlance.Json

def isHighHalf (n : Nat) : Bool := 0xD800 ≤ n && n < 0xDC00

def isLowHalf (n : Nat) : Bool := 0xDC00 ≤ n && n < 0xE000

/-- Half of a pair, by its number. -/
structure Half where
  number : Nat
  isHalf : isHighHalf number || isLowHalf number
  deriving DecidableEq

inductive Letter where
  | character (c : Char)
  | half (h : Half)
  deriving DecidableEq

/-- The letter of a number. -/
def letterOf (n : Nat) : Letter :=
  if h : isHighHalf n || isLowHalf n then .half ⟨n, h⟩ else .character (Char.ofNat n)

def Letter.character? : Letter → Option Char
  | .character c => some c
  | .half _ => none

abbrev Letters := List Letter

namespace Letters

def ofText (t : Text) : Letters := t.map .character

/-- The text of letters without halves. -/
def text? (l : Letters) : Option Text := l.mapM Letter.character?

/-- The letters between quotes; a half is written by its number. -/
def quoted (l : Letters) : Text :=
  let mark := Text.Quoted.quoteMark (l.filterMap Letter.character?)
  let inside (letter : Letter) : Text :=
    match letter with
    | .character c => Text.Quoted.escape mark c
    | .half h => '\\' :: 'u' :: Nat.toDigits 16 h.number
  mark :: l.flatMap inside ++ [mark]

end Letters

end Parlance.Json
