import Parlance.Number
import Parlance.OrderedMap
/-!
Entries of localization tables, and the columns that they fill: the fixed columns, one column for
each culture, and the length limit at the end.
-/

namespace Parlance.Table

/-- A text to translate, with what translators need to know about it. -/
structure Entry where
  space : Text
  key : Text
  source : Text
  category : Text
  context : Option Text
  comment : Option Text
  /-- Localized texts by culture. -/
  localizations : OrderedMap Text Text
  maxLength : Option Int

/-- The category of an entry that names none. -/
def defaultCategory : Text := "General"

/-- A key within its namespace. -/
def qualified (space key : Text) : Text := space ++ ':' :: key

def keyColumn : Text := "Key"

def spaceColumn : Text := "Namespace"

/-- The columns before those of the cultures. -/
def leadingColumns : List Text :=
  [keyColumn, spaceColumn, "Category", "Source", "Context", "Comment"]

def maxLengthColumn : Text := "MaxLength"

/-- All columns that are none of a culture. -/
def fixedColumns : List Text := leadingColumns ++ [maxLengthColumn]

def header (cultures : List Text) : List Text := leadingColumns ++ cultures ++ [maxLengthColumn]

namespace Entry

def id (e : Entry) : Text := qualified e.space e.key

/-- The localized text of a culture; a missing one is empty. -/
def localized (e : Entry) (culture : Text) : Text := (e.localizations.get? culture).getD []

/-- The length limit as it is written; without one nothing is. -/
def limitText (e : Entry) : Except Fault Text :=
  match e.maxLength with
  | some n => Number.integerText n
  | none => .ok []

/-- The cells of an entry in the order of the columns, given the last one. -/
def cellsWith (e : Entry) (cultures : List Text) (last : Text) : List Text :=
  [e.key, e.space, e.category, e.source, e.context.getD [], e.comment.getD []] ++
    cultures.map e.localized ++ [last]

/-- The cells of an entry, if its length limit can be written. -/
def cells (e : Entry) (cultures : List Text) : Except Fault (List Text) :=
  return e.cellsWith cultures (← e.limitText)

end Entry

end Parlance.Table
