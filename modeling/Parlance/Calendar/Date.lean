import Parlance.Text
/-!
Dates of the Gregorian calendar, from the year 1 to the year 9999.
-/

namespace Parlance.Calendar

/-- The part of a date or a time that is out of its range. -/
inductive OutOfRange where
  | year (value : Nat)
  | month
  | day
  | hour
  | minute
  | second

def OutOfRange.message : OutOfRange → Text
  | .year value => "year " ++ Text.ofNat value ++ " is out of range"
  | .month => "month must be in 1..12"
  | .day => "day is out of range for month"
  | .hour => "hour must be in 0..23"
  | .minute => "minute must be in 0..59"
  | .second => "second must be in 0..59"

def isLeap (year : Nat) : Bool := year % 4 = 0 && (year % 100 ≠ 0 || year % 400 = 0)

def daysInMonth (year month : Nat) : Nat :=
  if month = 2 then (if isLeap year then 29 else 28)
  else if month = 4 ∨ month = 6 ∨ month = 9 ∨ month = 11 then 30
  else 31

structure Date where
  year : Nat
  month : Nat
  day : Nat
  year_range : 1 ≤ year ∧ year ≤ 9999
  month_range : 1 ≤ month ∧ month ≤ 12
  day_range : 1 ≤ day ∧ day ≤ daysInMonth year month
  deriving DecidableEq

namespace Date

/-- Of several parts out of range the first is blamed. -/
def ofParts (year month day : Nat) : Except OutOfRange Date :=
  if hy : 1 ≤ year ∧ year ≤ 9999 then
    if hm : 1 ≤ month ∧ month ≤ 12 then
      if hd : 1 ≤ day ∧ day ≤ daysInMonth year month then .ok ⟨year, month, day, hy, hm, hd⟩
      else .error .day
    else .error .month
  else .error (.year year)

def daysIn (year : Nat) : Nat := if isLeap year then 366 else 365

/-- Days from the first day of the year 1 to the first day of a year. -/
def daysBefore (year : Nat) : Nat :=
  365 * (year - 1) + (year - 1) / 4 - (year - 1) / 100 + (year - 1) / 400

/-- Which day of its year a date is, counted from zero. -/
def dayOfYear (d : Date) : Nat :=
  (List.range' 1 (d.month - 1)).foldl (fun n m => n + daysInMonth d.year m) (d.day - 1)

/-- The day of the week; Monday is zero, and so is the first day of the year 1. -/
def weekday (d : Date) : Nat := (daysBefore d.year + d.dayOfYear) % 7

/-- The day of the week on which a year begins. -/
def firstWeekday (year : Nat) : Nat := daysBefore year % 7

/-- The number of weeks that have their Thursday in a year. -/
def weeksIn (year : Nat) : Nat :=
  if firstWeekday year = 3 ∨ (firstWeekday year = 2 ∧ isLeap year) then 53 else 52

def monthsIn (year : Nat) : List (Nat × Nat) := (List.range' 1 12).map (year, ·)

/-- The day after a number of days from the first day of the first of some months. -/
def locate (days : Nat) : List (Nat × Nat) → Except OutOfRange Date
  | [] => .error .day
  | (year, month) :: rest =>
    if days < daysInMonth year month then ofParts year month (days + 1)
    else locate (days - daysInMonth year month) rest

/-- A day of a week; the first week of a year has its first Thursday. The weeks of the year 0 lie in
no month. -/
def ofWeek (year week day : Nat) : Except OutOfRange Date :=
  if year = 0 then .error .month
  else
    let before := daysBefore year - daysBefore (year - 1)
    let first := firstWeekday year
    let monday := if first ≤ 3 then before - first else before + 7 - first
    let earlier := if year = 1 then [] else monthsIn (year - 1)
    locate (monday + 7 * (week - 1) + (day - 1)) (earlier ++ monthsIn year ++ monthsIn (year + 1))

def text (d : Date) : Text :=
  Text.padLeft 4 '0' (Text.ofNat d.year) ++ '-' :: Text.padLeft 2 '0' (Text.ofNat d.month) ++
    '-' :: Text.padLeft 2 '0' (Text.ofNat d.day)

end Date

end Parlance.Calendar
