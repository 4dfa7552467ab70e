import Parlance.Fault
import Parlance.Sample.Arithmetic
import Parlance.Sample.DatePattern
import Parlance.Sample.Language.Zone
import Parlance.Sample.Locale
import Parlance.Text.Quoted
/-!
Dates and times written by a pattern. A date has no fields of time and a time none of a date, but
both have the fields of an offset from universal time.
-/

namespace Parlance.Sample.DatePattern

open Calendar

/-- What is formatted: a date or a time of day. -/
inductive Subject where
  | date (d : Date)
  | time (t : Time)

/-- Why a pattern does not fit. -/
inductive Misfit where
  | length (char : Char) (length : Nat)
  /-- The subject has no such part. -/
  | missing (typeName part : String)
  /-- Days of the year are counted by putting another month into a date. -/
  | noMonth
  /-- A field that is known, but never written. -/
  | unsupported (char : Char)
  | range (part : OutOfRange)
  /-- A power of ten that no double can hold. -/
  | overflow

def Misfit.raised : Misfit → Raised
  | .length char n => ⟨.value, "Invalid length for field: " ++ Text.quoted (List.replicate n char)⟩
  | .missing typeName part =>
    ⟨.attribute,
      "'datetime." ++ typeName.toList ++ "' object has no attribute '" ++ part.toList ++ "'"⟩
  | .noMonth => ⟨.type, "'month' is an invalid keyword argument for replace()"⟩
  | .unsupported char => ⟨.key, Text.quoted ("Unsupported date/time field '" ++ [char, '\''])⟩
  | .range part => ⟨.value, part.message⟩
  | .overflow => ⟨.other "OverflowError", "int too large to convert to float"⟩

/-- A number with zeros in front up to a length. -/
def padded (n length : Nat) : Text := Text.padLeft length '0' (Text.ofNat n)

def nameAt (names : List String) (i : Nat) : Text := (names.getD i "").toList

/-- The length of names that a length of a field means. -/
def nameLength (length : Nat) : Language.NameLength :=
  if length ≤ 3 then .abbreviated
  else if length = 4 then .wide
  else if length = 5 then .narrow
  else .brief

/-- A year of length two is its last two digits. -/
def yearText (year length : Nat) : Text :=
  let digits := padded year length
  if length = 2 then digits.drop (digits.length - 2) else digits

/-- A number for lengths of one and two, else a name; both are counted from one. -/
def numberOrName (names : Language.NameLength → List String) (n length : Nat) : Text :=
  if length ≤ 2 then padded n length else nameAt (names (nameLength length)) (n - 1)

/-- A day of the week by the number that it has in the week of the locale, or by name. -/
def localWeekdayText (l : Locale) (use : Language.NameUse) (weekday length : Nat) : Text :=
  if length ≤ 2 then padded ((7 - l.weekRule.start + weekday) % 7 + 1) length
  else nameAt (l.language.dayNames use (nameLength length)) weekday

/-- The digits of a fraction of a second, rounded to a length. -/
def fractionText (microsecond length : Nat) : Except Misfit Text :=
  let rounded := (Double.ofDecimal (.finite false microsecond (-6))).roundTo length
  match rounded.times? (tenTo length) with
  | some x => .ok (padded x.floor length)
  | none => .error .overflow

/-- An offset in one of its forms; of one form the length one has no text. -/
def offsetText (l : Language) (form : ZoneForm) (length : Nat) (offset : Option Offset) : Text :=
  match form with
  | .offset =>
    if length ≤ 3 then l.offsetText .plain offset
    else if length = 4 then l.offsetText .labelled offset
    else l.offsetOrZulu .colon offset
  | .labelled => if length = 4 then l.offsetText .labelled offset else "None".toList
  | .zulu => l.offsetOrZulu (lengthStyle length) offset
  | _ => l.offsetText (lengthStyle length) offset
where
  lengthStyle (length : Nat) : Language.OffsetStyle :=
    if length = 1 then .hours else if length % 2 = 0 then .plain else .colon

/-- A place by its entry in the list of zones, by its city, or in a sentence. -/
def placeText (l : Language) (form : ZoneForm) (length : Nat) (offset : Option Offset) : Text :=
  match form, length with
  | .city, 2 => Language.zoneEntry offset
  | .city, 3 => Language.zoneName offset
  | _, _ => l.placeTime (Language.zoneName offset)

def zoneText (l : Language) (form : ZoneForm) (length : Nat) (offset : Option Offset) : Text :=
  match form with
  | .name => l.zoneText (length = 4) offset
  | .place | .city => placeText l form length offset
  | _ => offsetText l form length offset

/-- The part of a date or a time that a field needs. -/
def partName : DateField → String
  | .era | .year | .weekYear => "year"
  | .quarter | .month _ => "month"
  | .weekday | .localWeekday _ => "weekday"
  | .half | .hour | .hourToTwelve | .hourFromZero | .hourFromOne => "hour"
  | .minute => "minute"
  | .second => "second"
  | .fraction | .millisecond => "microsecond"
  | .zone .name => "tzname"
  | .dayPart _ | .zone _ => "tzinfo"
  | _ => "day"

/-- A field of a date. Offsets are those of universal time. -/
def dateField (l : Locale) (d : Date) (char : Char) (length : Nat) (field : DateField) :
    Except Misfit Text :=
  match field with
  | .era => .ok (l.language.eraName (nameLength length)).toList
  | .year => .ok (yearText d.year length)
  | .weekYear => return yearText (← (l.weekRule.yearOf d).mapError .range) length
  | .quarter => .ok (numberOrName l.language.quarterNames ((d.month - 1) / 3 + 1) length)
  | .month use => .ok (numberOrName (l.language.monthNames use) d.month length)
  | .week => return padded (← (l.weekRule.ofYear d).mapError .range) length
  | .weekOfMonth => .ok (Text.ofNat (l.weekRule.ofMonth d))
  | .day => .ok (padded d.day length)
  | .dayOfYear => .ok (padded (d.dayOfYear + 1) length)
  | .weekdayInMonth => .ok (Text.ofNat ((d.day - 1) / 7 + 1))
  | .dayNumber => .error (.unsupported char)
  | .weekday => .ok (nameAt (l.language.dayNames .within (nameLength length)) d.weekday)
  | .localWeekday use => .ok (localWeekdayText l use d.weekday length)
  | .zone .name | .zone .place | .zone .city => .error (.missing "date" (partName field))
  | .zone form => .ok (zoneText l.language form length none)
  | _ => .error (.missing "date" (partName field))

/-- A field of a time of day. -/
def timeField (l : Locale) (t : Time) (char : Char) (length : Nat) (field : DateField) :
    Except Misfit Text :=
  match field with
  | .half => .ok (l.language.halfOfDay (nameLength length) (12 ≤ t.hour)).toList
  | .dayPart use =>
    let part := l.language.dayPartAt t.hour t.minute t.second
    .ok (l.language.dayPartName use (nameLength length) part).toList
  | .hour => .ok (padded t.hour length)
  | .hourToTwelve => .ok (padded (if t.hour % 12 = 0 then 12 else t.hour % 12) length)
  | .hourFromZero => .ok (padded (t.hour % 12) length)
  | .hourFromOne => .ok (padded (if t.hour = 0 then 24 else t.hour) length)
  | .minute => .ok (padded t.minute length)
  | .second => .ok (padded t.second length)
  | .fraction => fractionText t.microsecond length
  | .millisecond =>
    let seconds := (t.hour * 60 + t.minute) * 60 + t.second
    .ok (padded (seconds * 1000 + t.microsecond / 1000) length)
  | .zone form => .ok (zoneText l.language form length t.offset)
  | .week | .dayOfYear => .error .noMonth
  | .dayNumber => .error (.unsupported char)
  | _ => .error (.missing "time" (partName field))

def Item.check : Item → Except Misfit Unit
  | .literal _ => .ok ()
  | .field char shown length =>
    if shown.allows length then .ok () else .error (.length char length)

def Item.write (l : Locale) (s : Subject) : Item → Except Misfit Text
  | .literal c => .ok [c]
  | .field char shown length =>
    match s with
    | .date d => dateField l d char length shown
    | .time t => timeField l t char length shown

/-- Write a date or time by a pattern. The first field that does not fit is blamed, and a wrong
length before all else. -/
def format (pattern : Text) (l : Locale) (s : Subject) : Except Misfit Text := do
  let all := items (signs pattern)
  all.forM Item.check
  return (← all.mapM (Item.write l s)).flatten

end Parlance.Sample.DatePattern
