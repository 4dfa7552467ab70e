import Parlance.MapStore
import Parlance.Table.Entry
/-!
Flat tables: entries of which only the localized texts of chosen cultures are kept, with protected
placeholders, and the placeholder maps to restore them.
-/

namespace Parlance.Table

open Placeholder Protection

/-- Rows of a table and the maps that belong to them. -/
structure Flat where
  rows : List Entry
  maps : MapStore

/-- Apply a function to the source text and the localized texts of some cultures; others go. -/
def Entry.mapTexts (f : Text → Text) (cultures : List Text) (e : Entry) : Entry :=
  { e with
    source := f e.source
    localizations := .ofPairs (cultures.map fun culture => (culture, f (e.localized culture))) }

/-- The map of the source text and of every localized text that is not empty. -/
def Entry.maps (kinds : Kinds) (cultures : List Text) (e : Entry) : List (Text × PlaceholderMap) :=
  let present := cultures.filter fun culture => !(e.localized culture).isEmpty
  (MapStore.key e.space e.key [], (protect kinds e.source).map) ::
    present.map fun culture =>
      (MapStore.key e.space e.key culture, (protect kinds (e.localized culture)).map)

namespace Flat

/-- The rows as they are, with no map. -/
def unprotected (entries : List Entry) (cultures : List Text) : Flat :=
  ⟨entries.map (Entry.mapTexts id cultures), ∅⟩

/-- The rows with protected placeholders; of two maps with one key the later stays. -/
def ofEntries (kinds : Kinds) (entries : List Entry) (cultures : List Text) : Flat :=
  { rows := entries.map (Entry.mapTexts (fun t => (protect kinds t).replaced) cultures)
    maps := .ofPairs (entries.flatMap (Entry.maps kinds cultures)) }

/-- The grid of cells, header first. -/
def grid (flat : Flat) (cultures : List Text) : Except Fault (List (List Text)) :=
  return header cultures :: (← flat.rows.mapM (Entry.cells · cultures))

end Flat

end Parlance.Table
