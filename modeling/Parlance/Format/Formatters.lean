import Parlance.Construct.Kind
import Parlance.Format.Formatter
import Parlance.Registry
/-!
Registries of formatters, one formatter for each kind of field.
-/

namespace Parlance

open Construct

abbrev Formatters (L : Type) := Registry Field (Formatter L)

namespace Formatters

variable {L : Type}

/-- Why a formatter is not registered. -/
inductive RegisterError where
  | frozen
  | unknownKeyword (e : UnknownWord)
  | takesBranches (c : Choice)

def RegisterError.message : RegisterError → Text
  | .frozen => "Cannot register formatters on a frozen registry; use copy() first"
  | .unknownKeyword e => e.message
  | .takesBranches c =>
    "'" ++ c.keyword.toList ++ "' constructs select branches and cannot take a formatter"

/-- Register a formatter under a keyword. A frozen registry refuses whatever the keyword. -/
def registerKeyword (r : Formatters L) (keyword : Text) (f : Formatter L) :
    Except RegisterError (Formatters L) :=
  if r.frozen then .error .frozen
  else
    match Kind.ofKeyword keyword with
    | .error e => .error (.unknownKeyword e)
    | .ok (.choice c) => .error (.takesBranches c)
    | .ok (.field field) => (r.register field f).mapError fun _ => .frozen

/-- The formatter of a kind; choices have none. -/
def ofKind? (r : Formatters L) : Kind → Option (Formatter L)
  | .field field => r.get? field
  | .choice _ => none

def default (b : Babel L) : Formatters L :=
  .ofPairs [(.number, Formatter.number b), (.date, Formatter.date b), (.time, Formatter.time b)]

/-- The default formatters, frozen. -/
def shared (b : Babel L) : Formatters L := (default b).freeze

def text (r : Formatters L) : Text :=
  "FormatterRegistry(formatters=" ++ Text.ofNat r.size ++ (if r.frozen then ", frozen)" else ")")

end Formatters

end Parlance
