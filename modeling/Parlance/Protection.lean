import Parlance.Brace.Piece
import Parlance.Placeholder.Kinds
/-!
Protection: every placeholder of a text gives way to a numbered one, so that translators see, and
may reorder, short tokens only. Numbers count from zero in the order of the text, whatever the
kinds. A group that no kind accepts stays, and its inside is looked through.
-/

namespace Parlance

open Brace Placeholder

/-- What stands behind numbered placeholders. -/
abbrev PlaceholderMap := OrderedMap Text Text

structure Protection where
  replaced : Text
  map : PlaceholderMap
  /-- The name of the kind of each placeholder, in order. -/
  kinds : List Text

namespace Protection

/-- A placeholder of the text and the kind that it is of. -/
structure Placed where
  source : Text
  kind : Kind

/-- The placeholder at an opening brace, with the number of characters that it takes. -/
def find (kinds : Kinds) (ms : Marks) : Option (Placed × Nat) := do
  let n ← ms.head?.bind Mark.reach
  let group := Group.ofMarks (ms.take n)
  let kind ← kinds.ofGroup? group
  return (⟨group.text, kind⟩, n)

def pieces (kinds : Kinds) (t : Text) : List (Piece Placed) :=
  Piece.cut (fun _ => find kinds) 0 (mark t)

/-- The numbered placeholder of an index. -/
def token (index : Nat) : Text := '{' :: Text.ofNat index ++ ['}']

/-- The text of pieces in which every placeholder is numbered, from an index on. -/
def numbered (index : Nat) : List (Piece Placed) → Text
  | [] => []
  | .literal t :: rest => t ++ numbered index rest
  | .found _ :: rest => token index ++ numbered (index + 1) rest

def placed : List (Piece Placed) → List Placed
  | [] => []
  | .literal _ :: rest => placed rest
  | .found p :: rest => p :: placed rest

def ofPieces (pieces : List (Piece Placed)) : Protection :=
  { replaced := numbered 0 pieces
    map := .ofPairs ((placed pieces).mapIdx fun i p => (token i, p.source))
    kinds := (placed pieces).map (·.kind.name) }

/-- Protect the placeholders of a text. -/
def protect (kinds : Kinds) (t : Text) : Protection := ofPieces (pieces kinds t)

end Protection

end Parlance
