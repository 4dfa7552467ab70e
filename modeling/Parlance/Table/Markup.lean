import Parlance.Text
/-!
Tables in hypertext markup: the first record is the header. Cells hold text only, so the five
characters with a meaning in markup are written as entities.
-/

namespace Parlance.Table.Markup

/-- A character of a cell. -/
def escape (c : Char) : Text :=
  if c = '&' then "&amp;"
  else if c = '<' then "&lt;"
  else if c = '>' then "&gt;"
  else if c = '"' then "&quot;"
  else if c = '\'' then "&#x27;"
  else [c]

/-- What stands before the first row. -/
def head : Text :=
  "<html>\n<head>\n<meta charset='utf-8'>\n<style>\n" ++
    "table \x7b border-collapse: collapse; \x7d\n" ++
    "td, th \x7b border: 1px solid #ccc; padding: 8px; text-align: left; \x7d\n" ++
    "th \x7b background-color: #f0f0f0; font-weight: bold; \x7d\n" ++
    "</style>\n</head>\n<body>\n<table>\n"

/-- What stands after the last row. -/
def tail : Text := "</table>\n</body>\n</html>\n"

/-- A text inside a pair of tags, on a line of its own. -/
def writeCell (tag cell : Text) : Text :=
  '<' :: tag ++ '>' :: cell.flatMap escape ++ "</" ++ tag ++ ['>', '\n']

def writeRow (tag : Text) (cells : List Text) : Text :=
  "<tr>\n" ++ cells.flatMap (writeCell tag) ++ "</tr>\n"

def write : List (List Text) → Text
  | [] => head ++ tail
  | header :: rows => head ++ writeRow "th" header ++ rows.flatMap (writeRow "td") ++ tail

end Parlance.Table.Markup
