import Parlance.Sample.Language.Names
/-!
Patterns of dates and times: runs of field letters, and literal text between them. Two quotes side
by side are a quote, and text between single quotes is literal. The lengths of all fields are
checked before anything is written.
-/

namespace Parlance.Sample

/-- How a zone is shown. -/
inductive ZoneForm where
  | name
  | offset
  | labelled
  | place
  | city
  | plain
  | zulu

/-- What a field shows. -/
inductive DateField where
  | era
  | year
  | weekYear
  | quarter
  | month (use : Language.NameUse)
  | week
  | weekOfMonth
  | day
  | dayOfYear
  | weekdayInMonth
  | dayNumber
  | weekday
  | localWeekday (use : Language.NameUse)
  | half
  | dayPart (use : Language.NameUse)
  | hour
  | hourToTwelve
  | hourFromZero
  | hourFromOne
  | minute
  | second
  | fraction
  | millisecond
  | zone (form : ZoneForm)

namespace DateField

def ofChar? : Char → Option DateField
  | 'G' => some .era
  | 'y' | 'u' => some .year
  | 'Y' => some .weekYear
  | 'Q' | 'q' => some .quarter
  | 'M' => some (.month .within)
  | 'L' => some (.month .alone)
  | 'w' => some .week
  | 'W' => some .weekOfMonth
  | 'd' => some .day
  | 'D' => some .dayOfYear
  | 'F' => some .weekdayInMonth
  | 'g' => some .dayNumber
  | 'E' => some .weekday
  | 'e' => some (.localWeekday .within)
  | 'c' => some (.localWeekday .alone)
  | 'a' => some .half
  | 'b' => some (.dayPart .alone)
  | 'B' => some (.dayPart .within)
  | 'H' => some .hour
  | 'h' => some .hourToTwelve
  | 'K' => some .hourFromZero
  | 'k' => some .hourFromOne
  | 'm' => some .minute
  | 's' => some .second
  | 'S' => some .fraction
  | 'A' => some .millisecond
  | 'z' => some (.zone .name)
  | 'Z' => some (.zone .offset)
  | 'O' => some (.zone .labelled)
  | 'v' => some (.zone .place)
  | 'V' => some (.zone .city)
  | 'x' => some (.zone .plain)
  | 'X' => some (.zone .zulu)
  | _ => none

/-- The lengths that a field may have. -/
def allows (field : DateField) (length : Nat) : Bool :=
  match field with
  | .year | .weekYear | .dayNumber | .fraction | .millisecond => true
  | .weekOfMonth | .weekdayInMonth => length == 1
  | .week | .day | .hour | .hourToTwelve | .hourFromZero | .hourFromOne | .minute | .second =>
    length ≤ 2
  | .dayOfYear => length ≤ 3
  | .zone .name | .zone .city => length ≤ 4
  | .zone .labelled | .zone .place => length == 1 || length == 4
  | .era | .quarter | .month _ | .half | .dayPart _ | .zone _ => length ≤ 5
  | .localWeekday .alone => length ≤ 6 && length ≠ 2
  | .weekday | .localWeekday .within => length ≤ 6

end DateField

namespace DatePattern

inductive Item where
  | literal (c : Char)
  | field (char : Char) (field : DateField) (length : Nat)

/-- A quote that opens or closes, or any other character. -/
inductive Sign where
  | quote
  | char (c : Char)
  deriving DecidableEq

/-- Tell quotes that stand for themselves from those that enclose text. A null character is a quote
that stands for itself. -/
def signs : Text → List Sign
  | '\'' :: '\'' :: rest => .char '\'' :: signs rest
  | '\'' :: rest => .quote :: signs rest
  | c :: rest => .char (if c = '\x00' then '\'' else c) :: signs rest
  | [] => []

/-- Put a field letter in front; it lengthens a field of the same letter that comes first. -/
def prepend (c : Char) (field : DateField) : List Item → List Item
  | .field d f n :: rest =>
    if c = d then .field d f (n + 1) :: rest else .field c field 1 :: .field d f n :: rest
  | rest => .field c field 1 :: rest

def literals (quoted : List Sign) : List Item :=
  quoted.filterMap fun
    | .char c => some (.literal c)
    | .quote => none

/-- The items of a pattern; a quotation that is never closed is dropped. -/
def items (ss : List Sign) : List Item :=
  match ss with
  | [] => []
  | .quote :: rest =>
    let inside := rest.takeWhile (· ≠ .quote)
    if inside.length < rest.length then literals inside ++ items (rest.drop (inside.length + 1))
    else []
  | .char c :: rest =>
    match DateField.ofChar? c with
    | some field => prepend c field (items rest)
    | none => .literal c :: items rest
termination_by ss.length
decreasing_by all_goals simp only [List.length_drop, List.length_cons]; omega

end DatePattern

end Parlance.Sample
