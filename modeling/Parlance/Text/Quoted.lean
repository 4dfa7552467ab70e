import Parlance.Text
import Parlance.Text.Printable
/-!
Quoted texts, as error messages show them: single quotes, or double quotes around a text that
holds a single quote and no double one, and escapes for whatever would not show.
-/

namespace Parlance.Text.Quoted

def quoteMark (t : Text) : Char :=
  if t.contains '\'' && !t.contains '"' then '"' else '\''

/-- The code point in small hexadecimal digits, filled up to a width. -/
def hexadecimal (width : Nat) (c : Char) : Text :=
  padLeft width '0' (Nat.toDigits 16 c.toNat)

/-- A character inside quotes: the quote mark and the backslash take a backslash, and what does
not print is written by name or by number. -/
def escape (mark : Char) (c : Char) : Text :=
  if c = mark ∨ c = '\\' then ['\\', c]
  else if c = '\n' then ['\\', 'n']
  else if c = '\r' then ['\\', 'r']
  else if c = '\t' then ['\\', 't']
  else if isPrintable c then [c]
  else if c.toNat < 0x100 then '\\' :: 'x' :: hexadecimal 2 c
  else if c.toNat < 0x10000 then '\\' :: 'u' :: hexadecimal 4 c
  else '\\' :: 'U' :: hexadecimal 8 c

end Quoted

/-- The text between quotes. -/
def quoted (t : Text) : Text :=
  let mark := Quoted.quoteMark t
  mark :: t.flatMap (Quoted.escape mark) ++ [mark]

end Parlance.Text
