import Parlance.Text
/-!
Faults: what evaluation does not turn into an issue. Integers beyond the digit limit have no text,
and a library or a formatter may raise what nothing catches.
-/

namespace Parlance

/-- Kinds of errors that are raised from outside. -/
inductive Raised.Kind where
  | value
  | type
  | invalidOperation
  | attribute
  | key
  | unknownLocale
  | other (name : Text)
  deriving DecidableEq

/-- An error that is raised from outside, and what it says. -/
structure Raised where
  kind : Raised.Kind
  message : Text
  deriving DecidableEq

inductive Fault where
  /-- An integer of more digits than may be written. -/
  | oversizedNumeral
  | raised (e : Raised)
  deriving DecidableEq

/-- What is said of a fault, if anything. -/
def Fault.message? : Fault → Option Text
  | .oversizedNumeral => none
  | .raised e => some e.message

end Parlance
