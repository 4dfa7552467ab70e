import Parlance.Issue
import Parlance.MapStore
import Parlance.Protection.Restore
import Parlance.Table.Delimited.Reading
import Parlance.Table.Entry
/-!
Imports: the localized texts in a delimited table. Every column that is not fixed is that of a
culture; of two columns with one name the later counts. Rows shorter than the header and empty
cells are passed over. Placeholders are restored where the store has a map for the cell.
-/

namespace Parlance.Table

/-- A localized text that was read from a table. -/
structure Localized where
  space : Text
  key : Text
  culture : Text
  text : Text
  deriving DecidableEq

def Localized.id (t : Localized) : Text := qualified t.space t.key

/-- Why a table cannot be imported. -/
inductive ImportError where
  | unreadable (e : Delimited.ReadError)
  | issue (issue : Issue)
  | fault (fault : Fault)

/-- Where the columns of a table stand. -/
structure Columns where
  count : Nat
  key : Nat
  space : Nat
  /-- The columns of the cultures, in order of first appearance. -/
  cultures : OrderedMap Text Nat

namespace Columns

def indexOf (columns : List Text) (name : Text) : Except Issue Nat :=
  match columns.findIdx? (· = name) with
  | some i => .ok i
  | none => .error (.table (.tableHeaderInvalid name))

def ofHeader (record : List Text) : Except Issue Columns := do
  let columns := record.map Text.trim
  let key ← indexOf columns keyColumn
  let space ← indexOf columns spaceColumn
  let cultures := columns.zipIdx.filter fun (name, _) => !fixedColumns.contains name
  return ⟨columns.length, key, space, .ofPairs cultures⟩

end Columns

/-- The text of a cell with its placeholders restored, if the store has a map for it. -/
def restoreCell (maps? : Option MapStore) (space key culture cell : Text) : Except Fault Text :=
  match maps?.bind (MapStore.lookup · space key culture) with
  | some map => Protection.restore map cell
  | none => .ok cell

/-- The localized text of a culture in a record, unless the cell is empty or there is none. -/
def readCell (maps? : Option MapStore) (columns : Columns) (record : List Text) (culture : Text) :
    Except Fault (Option Localized) :=
  let space := record.getD columns.space []
  let key := record.getD columns.key []
  match columns.cultures.get? culture with
  | none => .ok none
  | some i =>
    let cell := record.getD i []
    if cell.isEmpty then .ok none
    else return some ⟨space, key, culture, ← restoreCell maps? space key culture cell⟩

def readRecord (maps? : Option MapStore) (columns : Columns) (cultures : List Text)
    (record : List Text) : Except Fault (List Localized) :=
  if record.length < columns.count then .ok []
  else return (← cultures.mapM (readCell maps? columns record)).filterMap id

/-- The localized texts in a table of some cultures, or of all that it has columns for. A table
of fewer than two records holds none, whatever its header. -/
def importDelimited (delimiter : Char) (maps? : Option MapStore) (targets? : Option (List Text))
    (t : Text) : Except ImportError (List Localized) :=
  match Delimited.read delimiter t with
  | .error e => .error (.unreadable e)
  | .ok (header :: first :: rest) =>
    match Columns.ofHeader header with
    | .error issue => .error (.issue issue)
    | .ok columns =>
      let cultures := targets?.getD columns.cultures.keys
      match (first :: rest).mapM (readRecord maps? columns cultures) with
      | .error fault => .error (.fault fault)
      | .ok localized => .ok localized.flatten
  | .ok _ => .ok []

end Parlance.Table
