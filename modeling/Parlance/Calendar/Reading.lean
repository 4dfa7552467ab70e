import Parlance.Calendar.Time
import Parlance.Power
import Parlance.Text.Quoted
/-!
Reading dates and times. A date is year, month and day, or year, week and day of the week, with
hyphens or without; after any one character a time may follow: two digits each for hour, minute
and second, with colons or without, a fraction of a second and an offset or the letter Z. Digits
are those of ASCII. Places are counted in bytes, and the null character ends what is looked at.
-/

namespace Parlance.Calendar

/-- Why a text is no date or time. -/
inductive ReadError where
  | form (text : Text)
  | range (part : OutOfRange)
  | offset (microseconds : Int)

def ReadError.message : ReadError → Text
  | .form text => "Invalid isoformat string: " ++ text.quoted
  | .range part => part.message
  | .offset microseconds =>
    "offset must be a timedelta strictly between -timedelta(hours=24) and timedelta(hours=24), not "
      ++ Offset.spanText microseconds ++ "."

/-- The number that ASCII digits spell. -/
def digits? (t : Text) : Option Nat := if t.all Char.isDigit then Text.digitsValue? t else none

/-- Every character as often as it takes bytes. -/
def spread (t : Text) : Text := t.flatMap fun c => List.replicate c.utf8Size c

/-- The end of a text, or a null character. -/
def isEnd (t : Text) : Bool := t.head?.all (· = '\x00')

/-- A date by month, of numbers that need not be in range, or by week. -/
inductive DateParts where
  | byMonth (year month day : Nat)
  | byWeek (year week day : Nat)

/-- A day of a week that the year has. -/
def weekParts? (year : Nat) (week day : Text) : Option DateParts := do
  let week ← digits? week
  let day ← digits? day
  if 1 ≤ week ∧ week ≤ Date.weeksIn year ∧ 1 ≤ day ∧ day ≤ 7 then some (.byWeek year week day)
  else none

/-- The parts of a date; a week without a day means its first one. -/
def dateParts? (t : Text) : Option DateParts := do
  let year ← digits? (t.take 4)
  match t.drop 4 with
  | ['-', 'W', a, b, '-', c] | ['W', a, b, c] => weekParts? year [a, b] [c]
  | ['-', 'W', a, b] | ['W', a, b] => weekParts? year [a, b] ['1']
  | ['-', a, b, '-', c, d] | [a, b, c, d] =>
    return .byMonth year (← digits? [a, b]) (← digits? [c, d])
  | _ => none

/-- How many characters the date takes. Where a week is given, a digit behind the next hyphen may
be a day or begin a time: with another digit after it, it begins a time. Without hyphens the number
of digits tells, as those of a time come in pairs. -/
def dateLength (t : Text) : Nat :=
  if t[4]? = some '-' then
    if t[5]? = some 'W' then
      if t[8]? = some '-' && !t[10]?.any Char.isDigit then 10 else 8
    else 10
  else if t[4]? = some 'W' then
    let digits := ((t.drop 7).takeWhile Char.isDigit).length
    if digits = 0 || (digits ≠ 1 && digits % 2 = 1) then 7 else 8
  else 8

/-- What is left of a clock text after its two-digit fields: nothing or one stray character, or
digits of a fraction. -/
inductive Tail where
  | done (clean : Bool)
  | fraction (t : Text)

/-- Two-digit fields, at most as many as given. The first character after the first field decides
whether colons stand between them; a point or a comma ends them early. -/
def readFields : Nat → Option Bool → Text → Option (List Nat × Tail)
  | 0, _, t => some ([], .fraction t)
  | left + 1, colons, a :: b :: rest => do
    let n ← digits? [a, b]
    match rest with
    | [] => return ([n], .done true)
    | [stray] => return ([n], .done (stray = '\x00'))
    | c :: more =>
      let colons := colons.getD (c = ':')
      if colons && c = ':' then
        let (ns, tail) ← readFields left (some true) more
        return (n :: ns, tail)
      else if c = '.' || c = ',' then return ([n], .fraction more)
      else if colons then none
      else
        let (ns, tail) ← readFields left (some false) rest
        return (n :: ns, tail)
  | _ + 1, _, _ => none

/-- Microseconds from the digits of a fraction; digits past the sixth do not count. The answer
also tells whether nothing but digits follows. -/
def readFraction (t : Text) : Option (Fin 1000000 × Bool) := do
  let n ← digits? (t.take 6)
  let scaled := n * tenTo (6 - t.length)
  if h : scaled < 1000000 then return (⟨scaled, h⟩, isEnd ((t.drop 6).dropWhile Char.isDigit))
  else none

/-- Hour, minute, second and microsecond, and whether the text ends with them. -/
structure Clock where
  hour : Nat
  minute : Nat
  second : Nat
  microsecond : Fin 1000000
  clean : Bool

def clock? (t : Text) : Option Clock := do
  let (fields, tail) ← readFields 3 none t
  let (microsecond, clean) ← match tail with
    | .done clean => some (0, clean)
    | .fraction t => readFraction t
  return ⟨fields.getD 0 0, fields.getD 1 0, fields.getD 2 0, microsecond, clean⟩

/-- The offset that a sign and a clock spell, in microseconds; whole seconds of zero are no offset
at all. -/
def offsetOf (negative : Bool) (c : Clock) : Int :=
  let seconds : Int := c.hour * 3600 + c.minute * 60 + c.second
  let all := if seconds = 0 then 0 else seconds * 1000000 + c.microsecond.val
  if negative then -all else all

/-- Offset and clock; without an offset nothing may follow the clock. -/
def timeParts? (t : Text) : Option (Clock × Option Int) := do
  let (front, back) := t.span fun c => c ≠ '+' && c ≠ '-' && c ≠ 'Z'
  let clock ← clock? front
  match back with
  | [] => if clock.clean then some (clock, none) else none
  | 'Z' :: rest => if isEnd rest then some (clock, some 0) else none
  | sign :: rest =>
    let offset ← clock? rest
    if offset.clean then some (clock, some (offsetOf (sign = '-') offset)) else none

def Offset.ofMicroseconds (microseconds : Int) : Except ReadError Offset :=
  if h : microseconds.natAbs < dayLength then .ok ⟨microseconds, h⟩
  else .error (.offset microseconds)

def Time.ofClock (clock : Clock) (offset : Option Offset) : Except ReadError Time :=
  (Time.ofParts clock.hour clock.minute clock.second clock.microsecond offset).mapError .range

def DateParts.date : DateParts → Except ReadError Date
  | .byMonth year month day => (Date.ofParts year month day).mapError .range
  | .byWeek year week day => (Date.ofWeek year week day).mapError .range

def Date.ofText (t : Text) : Except ReadError Date :=
  match dateParts? (spread t) with
  | some parts => parts.date
  | none => .error (.form t)

def Time.ofText (t : Text) : Except ReadError Time := do
  match timeParts? (spread t) with
  | some (clock, offset) => Time.ofClock clock (← offset.mapM Offset.ofMicroseconds)
  | none => throw (.form t)

/-- The time that follows a date and one character: midnight if nothing does. -/
def timeAfterDate? (t : Text) : Option (Clock × Option Int) :=
  match t with
  | [] => some (⟨0, 0, 0, 0, true⟩, none)
  | separator :: _ => timeParts? (t.drop separator.utf8Size)

/-- A date and optionally a time. The form is checked first, then the offset, then date and time. -/
def DateTime.ofText (t : Text) : Except ReadError DateTime := do
  let all := spread t
  match dateParts? (all.take (dateLength all)), timeAfterDate? (all.drop (dateLength all)) with
  | some parts, some (clock, offset) =>
    let offset ← offset.mapM Offset.ofMicroseconds
    let date ← parts.date
    return ⟨date, ← Time.ofClock clock offset⟩
  | _, _ => throw (.form t)

end Parlance.Calendar
