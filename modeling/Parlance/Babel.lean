import Parlance.Calendar.Time
import Parlance.Fault
import Parlance.Locale
import Parlance.Number
/-!
The library of locale data that formatters call on. Its locales are its own, and so are its texts;
all that is known of it is what it is asked for and that it either answers or raises an error. What
may be assumed of its errors is stated where it is used (Babel.Tame).
-/

namespace Parlance

open Calendar

structure Babel (L : Type) where
  /-- The locale of an identifier. -/
  parse : Text → Except Raised L
  /-- A number by a pattern, or by that of the locale. -/
  formatDecimal : Number → Option Text → L → Except Raised Text
  formatPercent : Number → L → Except Raised Text
  /-- A date by the name of a width or by a pattern. -/
  formatDate : Date ⊕ DateTime → Text → L → Except Raised Text
  formatTime : Time ⊕ DateTime → Text → L → Except Raised Text

namespace Babel

variable {L : Type} (b : Babel L)

/-- The locale of a code, normalized first. -/
def find (code : Text) : Except Raised L := b.parse (Locale.normalize code)

/-- The locale of a code, or the default one if the code names none. -/
def resolve (code : Text) : Except Raised L :=
  match b.find code with
  | .ok l => .ok l
  | .error e =>
    if e.kind = .unknownLocale ∨ e.kind = .value then b.find Locale.defaultCode else .error e

end Babel

end Parlance
