import Parlance.Issue
import Parlance.Json.Reading
import Parlance.Json.Writing
import Parlance.MapStore
/-!
Stores of placeholder maps as documents: an object of objects of texts. Of two members with one key
the later counts. A document may spell texts that no file can hold, so what it is loaded as is a
store of letters (Loaded); the maps of tables are those without halves.
-/

namespace Parlance

/-- A store as it is loaded from a document. -/
abbrev MapStore.Loaded := OrderedMap Json.Letters (OrderedMap Json.Letters Json.Letters)

namespace MapStore

/-- Why a text cannot be loaded as a store. -/
inductive LoadError where
  | issue (issue : Issue)
  | oversizedNumeral
  | tooDeep (container : String)
  /-- The maps of tables have no place for halves of pairs. -/
  | unpaired

def toDocument (store : MapStore) (layout : Json.Layout) : Text :=
  Json.writeObject layout 0 (store.entries.map fun (key, map) =>
    (key, Json.writeObject layout 1 (map.entries.map fun (key, t) => (key, Json.quoted t))))

def invalid (reason : Text) : Issue := .placeholderMap (.placeholderMapInvalid reason)

/-- Why a text is no document, or no store. -/
def readIssue (document : Text) (problem : Json.Problem) (rest : Text) : Issue :=
  invalid (problem.message ++ ": " ++ Json.place document rest)

namespace Loaded

def text? : Json → Option Json.Letters
  | .text t => some t
  | _ => none

/-- The map that an object of texts spells. -/
def map? : Json → Option (OrderedMap Json.Letters Json.Letters)
  | .object members => do
    let entries ← (OrderedMap.ofPairs members).entries.mapM fun (key, value) =>
      return (key, ← text? value)
    return .ofPairs entries
  | _ => none

def ofJson : Json → Except Issue Loaded
  | .object members => do
    let entries ← (OrderedMap.ofPairs members).entries.mapM fun (key, value) =>
      match map? value with
      | some map => .ok (key, map)
      | none => .error (invalid ("entry " ++ key.quoted ++ " is not an object of strings"))
    return .ofPairs entries
  | other => .error (invalid ("top level is " ++ other.typeName ++ ", expected object"))

def ofDocument (limit : Json.Limit) (document : Text) : Except LoadError Loaded :=
  match Json.ofText limit document with
  | .ok json => (ofJson json).mapError .issue
  | .error (.refused problem rest) => .error (.issue (readIssue document problem rest))
  | .error .oversizedNumeral => .error .oversizedNumeral
  | .error (.tooDeep container) => .error (.tooDeep container)

/-- The map of texts, if there is no half in it. -/
def plainMap? (map : OrderedMap Json.Letters Json.Letters) : Option PlaceholderMap := do
  let entries ← map.entries.mapM fun (key, t) => return (← key.text?, ← t.text?)
  return .ofPairs entries

/-- The store of texts, if there is no half in it. -/
def plain? (store : Loaded) : Option MapStore := do
  let entries ← store.entries.mapM fun (key, map) => return (← key.text?, ← plainMap? map)
  return .ofPairs entries

end Loaded

/-- Load a store to restore tables with. -/
def ofDocument (limit : Json.Limit) (document : Text) : Except LoadError MapStore := do
  match (← Loaded.ofDocument limit document).plain? with
  | some store => return store
  | none => throw .unpaired

end MapStore

end Parlance
