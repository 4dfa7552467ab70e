import Parlance.Calendar.Time
import Parlance.Number
import Parlance.Text.Quoted
/-!
Values of arguments, and the texts that show them: the text that a message takes in, the text that
an error message names the value by, and the quoted form. The empty list stands for values of no
supported type.
-/

namespace Parlance

open Calendar

inductive Value where
  | text (t : Text)
  | integer (n : Int)
  | double (x : Double)
  | boolean (b : Bool)
  | decimal (d : Decimal)
  | date (d : Date)
  | time (t : Time)
  | dateTime (dt : DateTime)
  | absent
  | emptyList
  deriving DecidableEq

namespace Value

def typeName : Value → Text
  | .text _ => "str"
  | .integer _ => "int"
  | .double _ => "float"
  | .boolean _ => "bool"
  | .decimal _ => "Decimal"
  | .date _ => "date"
  | .time _ => "time"
  | .dateTime _ => "datetime"
  | .absent => "NoneType"
  | .emptyList => "list"

/-- The usable number that a value is or spells; truth values are none. -/
def number? : Value → Option Number
  | .text t => Number.ofText? t
  | .integer n => some (Number.integer n) |>.filter Number.isBounded
  | .double x => some (Number.double x) |>.filter Number.isBounded
  | .decimal d => some (Number.decimal d) |>.filter Number.isBounded
  | _ => none

/-- The text that names a value in a sentence. -/
def plain : Value → Except Fault Text
  | .text t => .ok t
  | .integer n => Number.integerText n
  | .double x => .ok x.written
  | .boolean b => .ok (if b then "True" else "False")
  | .decimal d => .ok d.scientific
  | .date d => .ok d.text
  | .time t => .ok t.text
  | .dateTime dt => .ok (dt.text ' ')
  | .absent => .ok "None"
  | .emptyList => .ok "[]"

/-- The quoted form of a value. -/
def quoted : Value → Except Fault Text
  | .text t => .ok t.quoted
  | .decimal d => .ok ("Decimal('" ++ d.scientific ++ "')")
  | .date d => .ok d.quoted
  | .time t => .ok t.quoted
  | .dateTime dt => .ok dt.quoted
  | v => v.plain

/-- The text of a value in a message: nothing for an absent value, all digits for a usable
number. -/
def message : Value → Except Fault Text
  | .absent => .ok []
  | .integer n => Number.integerText n
  | .double x => .ok (if x.isFinite then Number.doubleText x else x.written)
  | .decimal d => .ok (if d.isBounded then d.fixed else d.scientific)
  | v => v.plain

end Value

end Parlance
