import Parlance.Fault
import Parlance.Protection
/-!
Restoring: the keys of a placeholder map that occur in a text give way to their values, in one
pass from left to right, so that a value is never looked through again. Where several keys fit,
the one with the highest number counts, then the longest, then the first of the map. Two opening
braces are taken before any key.
-/

namespace Parlance

namespace Protection

/-- The most digits that the number of a key may have. -/
def numberLimit : Nat := 4300

/-- The number of a numbered placeholder; any other key counts as number zero. -/
def number (key : Text) : Except Fault Nat :=
  match Placeholder.inside? key with
  | some digits =>
    match Text.digitsValue? digits with
    | some n => if digits.length ≤ numberLimit then .ok n else .error .oversizedNumeral
    | none => .ok 0
  | none => .ok 0

/-- An entry of a placeholder map with the number of its key. -/
structure Ranked where
  key : Text
  value : Text
  number : Nat

/-- Whether an entry may be tried before another. -/
def Ranked.before (a b : Ranked) : Bool :=
  b.number < a.number || (b.number == a.number && b.key.length ≤ a.key.length)

/-- Put an entry before the first one that it may be tried before. -/
def place (a : Ranked) : List Ranked → List Ranked
  | [] => [a]
  | b :: rest => if a.before b then a :: b :: rest else b :: place a rest

/-- The entries of a map in the order in which they are tried. -/
def ranked (map : PlaceholderMap) : Except Fault (List Ranked) := do
  let entries ← map.entries.mapM fun (key, value) => return ⟨key, value, ← number key⟩
  return entries.foldr place []

/-- Replace keys by values. An empty key fits at every place where no other does. -/
def substitute (map : PlaceholderMap) (entries : List Ranked) (t : Text) : Text :=
  let fill := (map.get? []).getD []
  match t with
  | [] => fill
  | c :: rest =>
    if "\x7b\x7b".toList.isPrefixOf (c :: rest) then
      (map.get? "\x7b\x7b").getD "\x7b\x7b" ++ substitute map entries (rest.drop 1)
    else
      match entries.find? fun e => !e.key.isEmpty && e.key.isPrefixOf (c :: rest) with
      | some e => e.value ++ substitute map entries (rest.drop (e.key.length - 1))
      | none => fill ++ c :: substitute map entries rest
termination_by t.length
decreasing_by all_goals simp only [List.length_drop, List.length_cons]; omega

/-- Restore the placeholders of a text from a map. -/
def restore (map : PlaceholderMap) (t : Text) : Except Fault Text :=
  if map.isEmpty then .ok t else return substitute map (← ranked map) t

end Protection

end Parlance
