import Parlance.Sample.Language
/-!
The words of each language for months, days, quarters, eras, and parts of the day.
-/

namespace Parlance.Sample.Language

/-- How much of a name is written. -/
inductive NameLength where
  | abbreviated
  | wide
  | narrow
  | brief
  deriving DecidableEq

/-- Whether a name stands in a date or by itself. -/
inductive NameUse where
  | within
  | alone
  deriving DecidableEq

def monthNames : Language → NameUse → NameLength → List String
  | .english, _, .abbreviated | .english, _, .brief =>
    ["Jan", "Feb", "Mar", "Apr", "May", "Jun", "Jul", "Aug", "Sep", "Oct", "Nov", "Dec"]
  | .english, _, .wide =>
    ["January", "February", "March", "April", "May", "June", "July", "August", "September",
      "October", "November", "December"]
  | .german, .within, .abbreviated | .german, .within, .brief =>
    ["Jan.", "Feb.", "März", "Apr.", "Mai", "Juni", "Juli", "Aug.", "Sept.", "Okt.", "Nov.",
      "Dez."]
  | .german, .alone, .abbreviated | .german, .alone, .brief =>
    ["Jan", "Feb", "Mär", "Apr", "Mai", "Jun", "Jul", "Aug", "Sep", "Okt", "Nov", "Dez"]
  | .german, _, .wide =>
    ["Januar", "Februar", "März", "April", "Mai", "Juni", "Juli", "August", "September", "Oktober",
      "November", "Dezember"]
  | .french, _, .abbreviated | .french, _, .brief =>
    ["janv.", "févr.", "mars", "avr.", "mai", "juin", "juil.", "août", "sept.", "oct.", "nov.",
      "déc."]
  | .french, _, .wide =>
    ["janvier", "février", "mars", "avril", "mai", "juin", "juillet", "août", "septembre",
      "octobre", "novembre", "décembre"]
  | .chinese, _, .abbreviated | .chinese, _, .brief =>
    ["1月", "2月", "3月", "4月", "5月", "6月", "7月", "8月", "9月", "10月", "11月", "12月"]
  | .chinese, _, .wide =>
    ["一月", "二月", "三月", "四月", "五月", "六月", "七月", "八月", "九月", "十月", "十一月", "十二月"]
  | .chinese, _, .narrow => ["1", "2", "3", "4", "5", "6", "7", "8", "9", "10", "11", "12"]
  | _, _, .narrow => ["J", "F", "M", "A", "M", "J", "J", "A", "S", "O", "N", "D"]

/-- Names of the days of the week, Monday first. -/
def dayNames : Language → NameUse → NameLength → List String
  | .english, _, .abbreviated =>
    ["Mon", "Tue", "Wed", "Thu", "Fri", "Sat", "Sun"]
  | .english, _, .wide =>
    ["Monday", "Tuesday", "Wednesday", "Thursday", "Friday", "Saturday", "Sunday"]
  | .english, _, .narrow => ["M", "T", "W", "T", "F", "S", "S"]
  | .english, _, .brief =>
    ["Mo", "Tu", "We", "Th", "Fr", "Sa", "Su"]
  | .german, .alone, .abbreviated => ["Mo", "Di", "Mi", "Do", "Fr", "Sa", "So"]
  | .german, _, .abbreviated | .german, _, .brief =>
    ["Mo.", "Di.", "Mi.", "Do.", "Fr.", "Sa.", "So."]
  | .german, _, .wide =>
    ["Montag", "Dienstag", "Mittwoch", "Donnerstag", "Freitag", "Samstag", "Sonntag"]
  | .german, _, .narrow => ["M", "D", "M", "D", "F", "S", "S"]
  | .french, _, .abbreviated => ["lun.", "mar.", "mer.", "jeu.", "ven.", "sam.", "dim."]
  | .french, _, .wide =>
    ["lundi", "mardi", "mercredi", "jeudi", "vendredi", "samedi", "dimanche"]
  | .french, _, .narrow => ["L", "M", "M", "J", "V", "S", "D"]
  | .french, _, .brief => ["lu", "ma", "me", "je", "ve", "sa", "di"]
  | .chinese, _, .abbreviated | .chinese, _, .brief =>
    ["周一", "周二", "周三", "周四", "周五", "周六", "周日"]
  | .chinese, _, .wide => ["星期一", "星期二", "星期三", "星期四", "星期五", "星期六", "星期日"]
  | .chinese, _, .narrow => ["一", "二", "三", "四", "五", "六", "日"]

def quarterNames : Language → NameLength → List String
  | _, .narrow => ["1", "2", "3", "4"]
  | .english, .wide =>
    ["1st quarter", "2nd quarter", "3rd quarter", "4th quarter"]
  | .german, .wide => ["1. Quartal", "2. Quartal", "3. Quartal", "4. Quartal"]
  | .french, .wide => ["1er trimestre", "2e trimestre", "3e trimestre", "4e trimestre"]
  | .chinese, .wide => ["第一季度", "第二季度", "第三季度", "第四季度"]
  | .french, _ => ["T1", "T2", "T3", "T4"]
  | .chinese, _ => ["1季度", "2季度", "3季度", "4季度"]
  | _, _ => ["Q1", "Q2", "Q3", "Q4"]

/-- The era that all dates are in. -/
def eraName : Language → NameLength → String
  | .english, .wide => "Anno Domini"
  | .english, .narrow => "A"
  | .english, _ => "AD"
  | .german, _ => "n. Chr."
  | .french, .wide => "après Jésus-Christ"
  | .french, _ => "ap. J.-C."
  | .chinese, _ => "公元"

/-- The word for the half of the day. -/
def halfOfDay (l : Language) (length : NameLength) (afternoon : Bool) : String :=
  match l, length, afternoon with
  | .chinese, _, false => "上午"
  | .chinese, _, true => "下午"
  | .english, .narrow, false => "a"
  | .english, .narrow, true => "p"
  | _, _, false => "AM"
  | _, _, true => "PM"

inductive DayPart where
  | midnight
  | noon
  | morning
  | forenoon
  | midday
  | afternoon
  | evening
  | night
  deriving DecidableEq

/-- The hours at which the parts of the day begin. -/
def dayParts : Language → List (Nat × DayPart)
  | .english =>
    [(21, .night), (18, .evening), (12, .afternoon), (6, .morning), (0, .night)]
  | .german =>
    [(18, .evening), (13, .afternoon), (12, .midday), (10, .forenoon), (5, .morning), (0, .night)]
  | .french => [(18, .evening), (12, .afternoon), (4, .morning), (0, .night)]
  | .chinese =>
    [(19, .evening), (13, .afternoon), (12, .midday), (8, .forenoon), (5, .morning), (0, .night)]

/-- Whether there is a word for the moment of noon. -/
def hasNoon : Language → Bool
  | .german | .chinese => false
  | _ => true

/-- The part of the day of a time to the second; midnight and noon last for one second. -/
def dayPartAt (l : Language) (hour minute second : Nat) : DayPart :=
  if (minute, second) = (0, 0) ∧ hour = 0 then .midnight
  else if (minute, second) = (0, 0) ∧ hour = 12 ∧ l.hasNoon then .noon
  else ((l.dayParts.find? fun (start, _) => start ≤ hour).map (·.2)).getD .night

def englishDayPart : NameUse → NameLength → DayPart → String
  | .within, .narrow, .midnight => "mi"
  | .within, .narrow, .noon => "n"
  | .within, _, .morning => "in the morning"
  | .within, _, .afternoon => "in the afternoon"
  | .within, _, .evening => "in the evening"
  | .within, _, .night => "at night"
  | _, _, .midnight => "midnight"
  | _, _, .noon => "noon"
  | _, _, .morning | _, _, .forenoon => "morning"
  | _, _, .midday | _, _, .afternoon => "afternoon"
  | _, _, .evening => "evening"
  | _, _, .night => "night"

def germanDayPart : NameUse → NameLength → DayPart → String
  | .within, .wide, .midnight => "um Mitternacht"
  | _, _, .midnight => "Mitternacht"
  | .within, _, .morning => "morgens"
  | .within, _, .forenoon => "vormittags"
  | .within, _, .midday | .within, _, .noon => "mittags"
  | .within, _, .afternoon => "nachmittags"
  | .within, _, .evening => "abends"
  | .within, _, .night => "nachts"
  | .alone, _, .morning => "Morgen"
  | .alone, _, .forenoon => "Vormittag"
  | .alone, _, .midday | .alone, _, .noon => "Mittag"
  | .alone, _, .afternoon => "Nachmittag"
  | .alone, _, .evening => "Abend"
  | .alone, _, .night => "Nacht"

def frenchDayPart : NameUse → NameLength → DayPart → String
  | _, _, .midnight => "minuit"
  | _, _, .noon | _, _, .midday => "midi"
  | .within, .wide, .morning | .within, .wide, .forenoon => "du matin"
  | .within, .wide, .afternoon => "de l’après-midi"
  | .within, .wide, .evening => "du soir"
  | .within, .wide, .night => "du matin"
  | .alone, .wide, .morning | .alone, .wide, .forenoon => "matin"
  | _, _, .morning | _, _, .forenoon => "mat."
  | _, _, .afternoon => "après-midi"
  | _, _, .evening => "soir"
  | _, _, .night => "nuit"

def chineseDayPart : NameLength → DayPart → String
  | _, .midnight => "午夜"
  | .wide, .morning => "清晨"
  | _, .morning => "早上"
  | _, .forenoon => "上午"
  | _, .midday | _, .noon => "中午"
  | _, .afternoon => "下午"
  | _, .evening => "晚上"
  | _, .night => "凌晨"

def dayPartName : Language → NameUse → NameLength → DayPart → String
  | .english => englishDayPart
  | .german => germanDayPart
  | .french => frenchDayPart
  | .chinese => fun _ => chineseDayPart

end Parlance.Sample.Language
