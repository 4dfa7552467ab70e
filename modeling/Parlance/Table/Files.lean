import Parlance.Folder
import Parlance.MapStore.Document
import Parlance.Table.Export
import Parlance.Table.Import
/-!
Tables in files. The placeholder maps of a table lie beside it in a file of their own, named after
the table with another suffix.
-/

namespace Parlance.Table

open Placeholder

/-- Why a table or a map file cannot be used. -/
inductive FileError where
  | path (e : Folder.PathError)
  /-- A path without a name has no map file. -/
  | nameless
  | load (e : MapStore.LoadError)
  | table (e : ImportError)
  /-- A table that cannot be exported. -/
  | fault (fault : Fault)

def mapSuffix : Text := ".map.json"

/-- Where the placeholder maps of a table lie. -/
def mapPath? (table : Path) : Option Path := table.withSuffix? mapSuffix

def mapPath (table : Path) : Except FileError Path :=
  match mapPath? table with
  | some p => .ok p
  | none => .error .nameless

/-- The delimiter of a table goes by the suffix of its path, in any case. -/
def delimiterOf (table : Path) : Char :=
  if Text.toLower table.suffix = Format.csv.suffix then ',' else '\t'

/-- How stores are laid out in files. -/
def mapLayout : Json.Layout := .lines 2

def saveMaps (folder : Folder) (p : Path) (maps : MapStore) : Except FileError Folder :=
  (folder.write p (maps.toDocument mapLayout)).mapError .path

def loadMaps (limit : Json.Limit) (folder : Folder) (p : Path) : Except FileError MapStore := do
  let document ← (folder.readLines p).mapError .path
  (MapStore.ofDocument limit document).mapError .load

/-- Write a table, and its placeholder maps beside it. If the maps cannot be written, the table
stays. -/
def exportFile (folder : Folder) (p : Path) (x : Export) : Folder × Except FileError Unit :=
  match folder.write p x.content with
  | .error e => (folder, .error (.path e))
  | .ok written =>
    match mapPath p >>= (saveMaps written · x.maps) with
    | .error e => (written, .error e)
    | .ok complete => (complete, .ok ())

/-- Export entries to files. Nothing is written of what cannot be exported. -/
def exportEntries (folder : Folder) (p : Path) (kinds : Kinds) (format : Format)
    (entries : List Entry) (cultures : List Text) : Folder × Except FileError Export :=
  match Export.inFormat kinds format entries cultures with
  | .error fault => (folder, .error (.fault fault))
  | .ok x =>
    let written := exportFile folder p x
    (written.1, written.2.map fun _ => x)

/-- Read the localized texts in a table; without a map file no placeholder is restored. -/
def importFile (limit : Json.Limit) (folder : Folder) (p : Path) (targets? : Option (List Text)) :
    Except FileError (List Localized) := do
  let beside ← mapPath p
  let maps? ← if ← (folder.has beside).mapError .path then some <$> loadMaps limit folder beside
    else pure none
  let content ← (folder.readLines p).mapError .path
  (importDelimited (delimiterOf p) maps? targets? content).mapError .table

end Parlance.Table
