import Parlance.Babel
import Parlance.Calendar.Reading
import Parlance.Value
/-!
Formatters write a value for a locale in a style. A formatter that cannot says why, with a text to
stand in for the value. The default formatters leave the writing to the library of locale data, and
turn the errors that they catch into failures.
-/

namespace Parlance

/-- What a formatter fails with. -/
inductive FormatError where
  | failed (reason fallback : Text)
  | fault (f : Fault)

structure Formatter (L : Type) where
  name : Text
  format : Value → L → Option Text → Except FormatError Text

namespace Formatter

/-- A text of a value that may be too long to write. -/
def textOf (text : Except Fault Text) : Except FormatError Text := text.mapError .fault

/-- A failure that quotes the value. -/
def refuse {α : Type} (what : String) (v : Value) (reason : Text) (fallback : Except Fault Text) :
    Except FormatError α := do
  let quoted ← textOf v.quoted
  let fallback ← textOf fallback
  throw (.failed (what ++ " formatting failed for " ++ quoted ++ ": " ++ reason) fallback)

/-- The kinds of errors that are caught. -/
def catches : Raised.Kind → Bool
  | .value | .type | .invalidOperation | .attribute | .key => true
  | .unknownLocale | .other _ => false

/-- What the library writes. An error that is caught becomes a failure that names the value in plain
text. -/
def catching (what : String) (v : Value) (fallback : Except Fault Text)
    (written : Except Raised Text) : Except FormatError Text :=
  match written with
  | .ok t => .ok t
  | .error e =>
    if catches e.kind then do
      let plain ← textOf v.plain
      let fallback ← textOf fallback
      throw (.failed (what ++ " formatting failed for '" ++ plain ++ "': " ++ e.message) fallback)
    else .error (.fault (.raised e))

/-- The pattern that is meant by a style of integers. -/
def integerPattern : Text := "#,##0"

section Default

variable {L : Type} (b : Babel L)

/-- A number in a style: by the pattern of the locale, as an integer or a percentage, or by the
style as a pattern. -/
def writeNumber (n : Number) (l : L) (style : Option Text) : Except Raised Text :=
  match style with
  | none => b.formatDecimal n none l
  | some style =>
    if style = "integer".toList then b.formatDecimal n (some integerPattern) l
    else if style = "percent".toList then b.formatPercent n l
    else b.formatDecimal n (some style) l

def formatNumber (v : Value) (l : L) (style : Option Text) : Except FormatError Text :=
  match v.number? with
  | none => refuse "Number" v "not a number" v.message
  | some n => catching "Number" v v.message (writeNumber b n l style)

/-- A date, a time or both. -/
inductive Moment where
  | date (d : Calendar.Date)
  | time (t : Calendar.Time)
  | dateTime (dt : Calendar.DateTime)

def Moment.text : Moment → Text
  | .date d => d.text
  | .time t => t.text
  | .dateTime dt => dt.text 'T'

/-- The moment that a value is or spells. -/
def momentOf (what : String) : Value → Except FormatError Moment
  | .date d => .ok (.date d)
  | .time t => .ok (.time t)
  | .dateTime dt => .ok (.dateTime dt)
  | .text t =>
    match Calendar.DateTime.ofText (Text.trim t) with
    | .ok dt => .ok (.dateTime dt)
    | .error e => refuse what (.text t) e.message (.ok t)
  | v => refuse what v "not a date or time" v.message

/-- The named widths of dates and times. -/
def widths : List Text := ["short", "medium", "long", "full"]

/-- The name of a width in any case, blanks around it aside; any other style is a pattern. -/
def momentFormat : Option Text → Text
  | none => "medium"
  | some style =>
    let width := Text.toLower (Text.trim style)
    if width ∈ widths then width else style

def formatDate (v : Value) (l : L) (style : Option Text) : Except FormatError Text := do
  let m ← momentOf "Date" v
  let write (d : Calendar.Date ⊕ Calendar.DateTime) :=
    catching "Date" v (.ok m.text) (b.formatDate d (momentFormat style) l)
  match m with
  | .date d => write (.inl d)
  | .dateTime dt => write (.inr dt)
  | .time _ => refuse "Date" v "time of day has no date" (.ok m.text)

def formatTime (v : Value) (l : L) (style : Option Text) : Except FormatError Text := do
  let m ← momentOf "Time" v
  let write (t : Calendar.Time ⊕ Calendar.DateTime) :=
    catching "Time" v (.ok m.text) (b.formatTime t (momentFormat style) l)
  match m with
  | .time t => write (.inl t)
  | .dateTime dt => write (.inr dt)
  | .date _ => refuse "Time" v "date has no time of day" (.ok m.text)

def number : Formatter L := ⟨"number".toList, formatNumber b⟩

def date : Formatter L := ⟨"date".toList, formatDate b⟩

def time : Formatter L := ⟨"time".toList, formatTime b⟩

end Default

end Formatter

end Parlance
