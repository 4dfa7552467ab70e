import Parlance.Word
/-!
The keywords of constructs. Choices select one of several branches; fields format a value.
-/

namespace Parlance.Construct

/-- How a construct chooses among its branches: by counting, by the value itself, by rank. -/
inductive Choice where
  | plural
  | select
  | ordinal
  deriving DecidableEq

/-- What a construct formats its value as. -/
inductive Field where
  | number
  | date
  | time
  deriving DecidableEq

inductive Kind where
  | choice (c : Choice)
  | field (f : Field)
  deriving DecidableEq

def Choice.keyword : Choice → String
  | .plural => "plural"
  | .select => "select"
  | .ordinal => "selectordinal"

def Field.keyword : Field → String
  | .number => "number"
  | .date => "date"
  | .time => "time"

namespace Kind

def keyword : Kind → String
  | .choice c => c.keyword
  | .field f => f.keyword

def hasBranches : Kind → Bool
  | .choice _ => true
  | .field _ => false

def all : List Kind :=
  [.choice .plural, .choice .select, .choice .ordinal, .field .number, .field .date, .field .time]

def ofKeyword? (keyword : Text) : Option Kind :=
  all.find? fun k => k.keyword.toList = keyword

def ofKeyword (word : Text) : Except UnknownWord Kind := ofWord "ConstructKind" all keyword word

end Kind

end Parlance.Construct
