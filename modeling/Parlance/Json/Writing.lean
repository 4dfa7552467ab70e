import Parlance.Json.Quoted
/-!
Writing objects, on one line or with every member on a line of its own.
-/

namespace Parlance.Json

inductive Layout where
  | line
  /-- Members stand on lines of their own, indented by so many blanks for each level. -/
  | lines (indent : Nat)

/-- The start of a new line at a level; nothing if all stands on one line. -/
def Layout.newLine (layout : Layout) (level : Nat) : Text :=
  match layout with
  | .line => []
  | .lines indent => '\n' :: List.replicate (indent * level) ' '

/-- What stands between two members. -/
def Layout.separator (layout : Layout) (level : Nat) : Text :=
  match layout with
  | .line => [',', ' ']
  | .lines _ => ',' :: layout.newLine level

def writeMember (member : Text × Text) : Text := quoted member.1 ++ [':', ' '] ++ member.2

/-- An object at a level, of keys and written values. -/
def writeObject (layout : Layout) (level : Nat) (members : List (Text × Text)) : Text :=
  if members.isEmpty then ['{', '}']
  else
    '{' :: layout.newLine (level + 1) ++
      (layout.separator (level + 1)).intercalate (members.map writeMember) ++
      layout.newLine level ++ ['}']

end Parlance.Json
