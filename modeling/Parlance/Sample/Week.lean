import Parlance.Calendar.Date
/-!
Numbers of weeks. Where weeks begin, and which week of a year or a month counts as its first one,
differs from place to place.
-/

namespace Parlance.Calendar

/-- The day on which weeks begin, counted from Monday, and how many days of a period its first week
has at least. -/
structure WeekRule where
  start : Nat
  least : Nat

namespace WeekRule

/-- The week of a day of a period, given the number of the day and its day of the week. Days before
the first week are in week zero. -/
def weekOf (r : WeekRule) (day weekday : Nat) : Nat :=
  let before := (((weekday : Int) - r.start - day + 1) % 7).toNat
  (day + before - 1) / 7 + if r.least ≤ 7 - before then 1 else 0

def ofMonth (r : WeekRule) (d : Date) : Nat := r.weekOf d.day d.weekday

/-- The week of the year; days before the first week are in the last one of the year before, and
days behind the last week may be in the first one of the next year. -/
def ofYear (r : WeekRule) (d : Date) : Except OutOfRange Nat :=
  let week := r.weekOf (d.dayOfYear + 1) d.weekday
  if week = 0 then
    if d.year = 1 then .error (.year 0)
    else .ok (r.weekOf (Date.daysIn (d.year - 1)) ((Date.firstWeekday d.year + 6) % 7))
  else if week ≤ 52 then .ok week
  else if d.year = 9999 then .error (.year 10000)
  else
    let weekday := Date.firstWeekday (d.year + 1)
    let before := (((weekday : Int) - r.start) % 7).toNat
    .ok (if r.weekOf 1 weekday = 1 ∧ 32 ≤ d.day + before then 1 else week)

/-- The year that the week of a date belongs to. -/
def yearOf (r : WeekRule) (d : Date) : Except OutOfRange Nat :=
  if d.month = 1 ∧ d.day < 7 then return if 52 ≤ (← r.ofYear d) then d.year - 1 else d.year
  else if d.month = 12 ∧ 25 < d.day then return if (← r.ofYear d) ≤ 2 then d.year + 1 else d.year
  else .ok d.year

end WeekRule

end Parlance.Calendar
