import Parlance.Calendar.Date
/-!
Times of day to the microsecond, with or without an offset from universal time, and a date with a
time of day.
-/

namespace Parlance.Calendar

def two (n : Nat) : Text := Text.padLeft 2 '0' (Text.ofNat n)

def six (n : Nat) : Text := Text.padLeft 6 '0' (Text.ofNat n)

/-- Microseconds of a day. -/
def dayLength : Nat := 24 * 60 * 60 * 1000000

/-- An offset in microseconds, shorter than a day either way. -/
structure Offset where
  microseconds : Int
  range : microseconds.natAbs < dayLength
  deriving DecidableEq

namespace Offset

/-- A difference of times as days, seconds of a day and microseconds of a second, the last two not
negative; a part that is zero is left out. -/
def spanText (microseconds : Int) : Text :=
  let days := microseconds.fdiv dayLength
  let seconds := (microseconds.fmod dayLength).toNat / 1000000
  let rest := (microseconds.fmod dayLength).toNat % 1000000
  let parts := (if days = 0 then [] else ["days=" ++ Text.ofInt days]) ++
    (if seconds = 0 then [] else ["seconds=" ++ Text.ofNat seconds]) ++
    (if rest = 0 then [] else ["microseconds=" ++ Text.ofNat rest])
  "datetime.timedelta(" ++ (if parts.isEmpty then "0".toList else [',', ' '].intercalate parts) ++
    ")"

/-- Sign, hours and minutes; seconds and their fraction only where they are not zero. -/
def text (o : Offset) : Text :=
  let all := o.microseconds.natAbs
  let seconds := all / 1000000
  (if o.microseconds < 0 then '-' else '+') :: two (seconds / 3600) ++
    ':' :: two (seconds / 60 % 60) ++
    (if all % 60000000 = 0 then [] else ':' :: two (seconds % 60)) ++
    (if all % 1000000 = 0 then [] else '.' :: six (all % 1000000))

def quoted (o : Offset) : Text :=
  if o.microseconds = 0 then "datetime.timezone.utc".toList
  else "datetime.timezone(" ++ spanText o.microseconds ++ ")"

end Offset

structure Time where
  hour : Nat
  minute : Nat
  second : Nat
  microsecond : Nat
  offset : Option Offset
  hour_lt : hour < 24
  minute_lt : minute < 60
  second_lt : second < 60
  microsecond_lt : microsecond < 1000000
  deriving DecidableEq

namespace Time

def ofParts (hour minute second : Nat) (microsecond : Fin 1000000) (offset : Option Offset) :
    Except OutOfRange Time :=
  if hh : hour < 24 then
    if hm : minute < 60 then
      if hs : second < 60 then
        .ok ⟨hour, minute, second, microsecond, offset, hh, hm, hs, microsecond.isLt⟩
      else .error .second
    else .error .minute
  else .error .hour

def text (t : Time) : Text :=
  two t.hour ++ ':' :: two t.minute ++ ':' :: two t.second ++
    (if t.microsecond = 0 then [] else '.' :: six t.microsecond) ++
    (match t.offset with
      | some o => o.text
      | none => [])

/-- Hour and minute as arguments, then seconds and microseconds as far as they are not zero, then
the offset. -/
def arguments (t : Time) : List Text :=
  [Text.ofNat t.hour, Text.ofNat t.minute] ++
    (if t.microsecond ≠ 0 then [Text.ofNat t.second, Text.ofNat t.microsecond]
      else if t.second ≠ 0 then [Text.ofNat t.second] else []) ++
    (t.offset.toList.map fun (o : Offset) => "tzinfo=" ++ o.quoted)

def quoted (t : Time) : Text :=
  "datetime.time(" ++ [',', ' '].intercalate t.arguments ++ ")"

end Time

def Date.arguments (d : Date) : List Text :=
  [Text.ofNat d.year, Text.ofNat d.month, Text.ofNat d.day]

def Date.quoted (d : Date) : Text :=
  "datetime.date(" ++ [',', ' '].intercalate d.arguments ++ ")"

structure DateTime where
  date : Date
  time : Time
  deriving DecidableEq

namespace DateTime

/-- Date and time with a character between them. -/
def text (separator : Char) (dt : DateTime) : Text := dt.date.text ++ separator :: dt.time.text

def quoted (dt : DateTime) : Text :=
  "datetime.datetime(" ++ [',', ' '].intercalate (dt.date.arguments ++ dt.time.arguments) ++ ")"

end DateTime

end Parlance.Calendar
