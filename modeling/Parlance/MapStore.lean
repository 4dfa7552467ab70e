import Parlance.Protection
import Parlance.Text.Quoted
/-!
Stores of placeholder maps. A map is kept under namespace, key and culture of the text that it
belongs to; source texts have a culture word of their own.
-/

namespace Parlance

abbrev MapStore := OrderedMap Text PlaceholderMap

namespace MapStore

/-- What stands for the culture of a source text. -/
def sourceCulture : Text := "source"

/-- The key of a text; the empty culture means the source text. -/
def key (space name culture : Text) : Text :=
  space ++ ':' :: name ++ ':' :: (if culture.isEmpty then sourceCulture else culture)

/-- The map to restore a localized text with: its own map unless that is empty or missing, and then
the map of the source text. -/
def lookup (store : MapStore) (space name culture : Text) : Option PlaceholderMap :=
  match store.get? (key space name culture) with
  | some map => if map.isEmpty then store.get? (key space name []) else some map
  | none => store.get? (key space name [])

/-- Stores with the same maps under the same keys, in any order. -/
def same (s t : MapStore) : Bool :=
  OrderedMap.sameEntries (OrderedMap.sameEntries (· == ·)) s t

/-- What is said of a key that is not there. -/
def missingMessage (key : Text) : Text := key.quoted

def text (store : MapStore) : Text := "PlaceholderMapStore(maps=" ++ Text.ofNat store.size ++ [')']

end MapStore

end Parlance
