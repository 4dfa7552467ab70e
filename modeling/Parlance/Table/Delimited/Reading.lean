import Parlance.Table.Delimited
/-!
Reading delimited text, character by character. Quotes open a field only at its start; what
follows a closing quote is added to the field. Lines end at a line feed; a carriage return ends the
record, and its line must hold nothing more. A quoted field that never closes takes all the rest.
-/

namespace Parlance.Table.Delimited

/-- Why a text is no table. -/
inductive ReadError where
  /-- A character stands between a carriage return and the end of the line. -/
  | strayBreak
  /-- A field is longer than fields may be. -/
  | fieldTooLong
  deriving DecidableEq

/-- The most characters that a field may have. -/
def fieldLimit : Nat := 131072

/-- Where reading stands. -/
inductive Place where
  | recordStart
  | fieldStart
  | plain
  | quoted
  /-- After a quote inside quotes, which closes the field or is doubled. -/
  | quoteSeen
  | recordEnd
  deriving DecidableEq

/-- What has been read: the characters of the field, the fields of the record and the records, the
last one first. -/
structure Progress where
  place : Place
  field : Text
  record : List Text
  records : List (List Text)

namespace Progress

def start : Progress := ⟨.recordStart, [], [], []⟩

def goto (p : Progress) (place : Place) : Progress := { p with place }

def add (p : Progress) (c : Char) (place : Place) : Progress :=
  { p with field := c :: p.field, place }

/-- Close the field. -/
def save (p : Progress) (place : Place) : Except ReadError Progress :=
  if fieldLimit < p.field.length then .error .fieldTooLong
  else .ok { p with field := [], record := p.field.reverse :: p.record, place }

/-- Close the record. -/
def closeRecord (p : Progress) : Progress :=
  { p with record := [], records := p.record.reverse :: p.records, place := .recordStart }

def isBreak (c : Char) : Bool := c == '\n' || c == '\r'

/-- A character at the start of a field. -/
def openField (delimiter : Char) (p : Progress) (c : Char) : Except ReadError Progress :=
  if isBreak c then p.save .recordEnd
  else if c = '"' then .ok (p.goto .quoted)
  else if c = delimiter then p.save .fieldStart
  else .ok (p.add c .plain)

/-- A character, wherever reading stands. -/
def take (delimiter : Char) (p : Progress) (c : Char) : Except ReadError Progress :=
  match p.place with
  | .recordStart => if isBreak c then .ok (p.goto .recordEnd) else p.openField delimiter c
  | .fieldStart => p.openField delimiter c
  | .plain =>
    if isBreak c then p.save .recordEnd
    else if c = delimiter then p.save .fieldStart
    else .ok (p.add c .plain)
  | .quoted => .ok (if c = '"' then p.goto .quoteSeen else p.add c .quoted)
  | .quoteSeen =>
    if c = '"' then .ok (p.add c .quoted)
    else if c = delimiter then p.save .fieldStart
    else if isBreak c then p.save .recordEnd
    else .ok (p.add c .plain)
  | .recordEnd => if isBreak c then .ok p else .error .strayBreak

/-- The end of a line. -/
def endLine (p : Progress) : Except ReadError Progress :=
  match p.place with
  | .quoted => .ok p
  | .recordStart | .recordEnd => .ok p.closeRecord
  | .fieldStart | .plain | .quoteSeen => return (← p.save .recordEnd).closeRecord

/-- A character, and the end of the line after a line feed. -/
def step (delimiter : Char) (p : Progress) (c : Char) : Except ReadError Progress := do
  let p ← p.take delimiter c
  if c = '\n' then p.endLine else return p

/-- The end of the text, after the end of its last line. -/
def finish (p : Progress) : Except ReadError Progress :=
  match p.place with
  | .quoted => return (← p.save .recordEnd).closeRecord
  | _ => return p

end Progress

/-- The records of a text; empty lines hold none. -/
def read (delimiter : Char) (t : Text) : Except ReadError (List (List Text)) := do
  let p ← t.foldlM (Progress.step delimiter) .start
  let p ← if t.getLast?.any (· ≠ '\n') then p.endLine else pure p
  return (← p.finish).records.reverse.filter (!·.isEmpty)

end Parlance.Table.Delimited
