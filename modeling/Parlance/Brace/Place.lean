import Parlance.Brace
import Parlance.Brace.Index
/-!
Places in a pattern. A negative place counts from the end. A character that is asked for has to be
there; a search that starts before the pattern starts with it.
-/

namespace Parlance.Brace

/-- A character was asked for at a place outside the text. -/
inductive RangeError where
  | outside

def RangeError.message : RangeError → String
  | .outside => "string index out of range"

/-- A place counted from the start, which is still negative for a place before the text. -/
def placeIn (t : List α) (place : Int) : Int := if place < 0 then t.length + place else place

/-- The character at a place. -/
def charAt (t : List α) (place : Int) : Except RangeError α :=
  if placeIn t place < 0 then .error .outside
  else
    match t[(placeIn t place).toNat]? with
    | some c => .ok c
    | none => .error .outside

/-- The end of the group that opens at a place. From a negative place the count runs to the end of
the pattern and goes on at its start. -/
def closeAt? (pattern : Text) (place : Int) : Except RangeError (Option Int) :=
  if 0 ≤ place then .ok ((close? pattern place.toNat).map Int.ofNat)
  else if placeIn pattern place < 0 then .error .outside
  else
    let wrapped := pattern.drop (placeIn pattern place).toNat ++ pattern
    .ok ((close? wrapped 0).map (place + ·))

namespace Marks

/-- The end of the group that opens at a place; none opens at a negative one. -/
def endAt? (ms : Marks) (place : Int) : Option Nat :=
  if place < 0 then none else ms.endOf? place.toNat

def nextGroupAt? (ms : Marks) (place : Int) : Option (Nat × Nat) :=
  ms.nextGroup? (placeIn ms place).toNat

/-- The marks between two places that are counted from the start; negative ones are the start. -/
def range (ms : Marks) (start stop : Int) : Marks := ms.slice start.toNat stop.toNat

end Marks

end Parlance.Brace
