import Parlance.Table.Delimited
import Parlance.Table.Flat
import Parlance.Table.Markup
import Parlance.Word
/-!
Exports: flat tables written out, with the placeholder maps to read them back. A table is not
exported if the cells of one of its rows cannot be written.
-/

namespace Parlance.Table

open Placeholder

inductive Format where
  | tsv
  | csv
  | html
  deriving DecidableEq

namespace Format

def all : List Format := [.tsv, .csv, .html]

def name : Format → String
  | .tsv => "tsv"
  | .csv => "csv"
  | .html => "html"

def ofName (word : Text) : Except UnknownWord Format := ofWord "TableFormat" all name word

/-- The file name suffix that goes with the format. -/
def suffix (format : Format) : Text := '.' :: format.name.toList

end Format

/-- A written table, its placeholder maps and the number of its rows. -/
structure Export where
  content : Text
  maps : MapStore
  rowCount : Nat

namespace Export

/-- Write a flat table, given how a grid is written. -/
def ofFlat (flat : Flat) (cultures : List Text) (write : List (List Text) → Text) :
    Except Fault Export :=
  return ⟨write (← flat.grid cultures), flat.maps, flat.rows.length⟩

/-- Export as delimited text. -/
def delimited (kinds : Kinds) (delimiter : Char) (entries : List Entry) (cultures : List Text) :
    Except Fault Export :=
  ofFlat (Flat.ofEntries kinds entries cultures) cultures (Delimited.write delimiter)

/-- Export as markup. -/
def markup (kinds : Kinds) (entries : List Entry) (cultures : List Text) : Except Fault Export :=
  ofFlat (Flat.ofEntries kinds entries cultures) cultures Markup.write

def inFormat (kinds : Kinds) (format : Format) (entries : List Entry) (cultures : List Text) :
    Except Fault Export :=
  match format with
  | .tsv => delimited kinds '\t' entries cultures
  | .csv => delimited kinds ',' entries cultures
  | .html => markup kinds entries cultures

end Export

end Parlance.Table
