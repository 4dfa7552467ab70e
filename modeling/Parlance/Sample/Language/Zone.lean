import Parlance.Calendar.Time
import Parlance.Sample.Language
/-!
Time zones in words. Only universal time has a name and a place in a list of zones; of all other
zones the offset from universal time is all that is known. A time without an offset is universal
time.
-/

namespace Parlance.Sample.Language

open Calendar

/-- The name of universal time. -/
def universalTime : Language → String
  | .english => "Coordinated Universal Time"
  | .german => "Koordinierte Weltzeit"
  | .french => "temps universel coordonné"
  | .chinese => "协调世界时"

/-- What stands in front of an offset from universal time. -/
def offsetLabel : Language → String
  | .french => "UTC"
  | _ => "GMT"

/-- The time of a place in a region that is not known. -/
def placeTime (l : Language) (place : Text) : Text :=
  match l with
  | .english => "Unknown Region (" ++ place ++ ") Time"
  | .german => "Unbekannte Region (" ++ place ++ ") (Ortszeit)"
  | .french => "heure : région indéterminée (" ++ place ++ ")"
  | .chinese => "未知地区（" ++ place ++ "）时间"

/-- How an offset is written: hours, and minutes too unless the offset is in whole hours; hours and
minutes, side by side or with a colon; or the latter behind a label. -/
inductive OffsetStyle where
  | hours
  | plain
  | colon
  | labelled

/-- The whole seconds of an offset, counted down. -/
def offsetSeconds (offset : Option Offset) : Int := (offset.elim 0 (·.microseconds)).fdiv 1000000

def offsetText (l : Language) (style : OffsetStyle) (offset : Option Offset) : Text :=
  let hours := (offsetSeconds offset).fdiv 3600
  let seconds := ((offsetSeconds offset).fmod 3600).toNat
  let hour := (if hours < 0 then '-' else '+') :: two hours.natAbs
  let minute := two (seconds / 60)
  match style with
  | .hours => if seconds = 0 then hour else hour ++ minute
  | .plain => hour ++ minute
  | .colon => hour ++ ':' :: minute
  | .labelled => l.offsetLabel ++ hour ++ ':' :: minute

/-- An offset, where none at all is a single letter. -/
def offsetOrZulu (l : Language) (style : OffsetStyle) (offset : Option Offset) : Text :=
  if offsetSeconds offset = 0 then ['Z'] else l.offsetText style offset

/-- The short name of a zone. -/
def zoneName (offset : Option Offset) : Text :=
  match offset with
  | none => "UTC".toList
  | some o => if o.microseconds = 0 then "UTC".toList else "UTC" ++ o.text

/-- The entry of a zone in the list of zones, or its name if it has none. -/
def zoneEntry (offset : Option Offset) : Text :=
  if zoneName offset = "UTC".toList then "Etc/UTC".toList else zoneName offset

/-- The name of a zone, short or long, as far as it has one; else its offset. -/
def zoneText (l : Language) (long : Bool) (offset : Option Offset) : Text :=
  if zoneName offset = "UTC".toList then (if long then l.universalTime.toList else "UTC".toList)
  else l.offsetText (if long then .labelled else .plain) offset

end Parlance.Sample.Language
