import Parlance.OrderedMap
import Parlance.Path
/-!
Text files in a tree of folders, seen from one of the folders. Files are written and read as they
are; line ends may be evened out on the way in.
-/

namespace Parlance

/-- Where a file or a folder stands: its name and the names of the folders around it, the nearest
first. The root has no name. -/
abbrev Location := List Text

inductive Node where
  | folder
  | file (content : Text)
  deriving DecidableEq

/-- A tree of files, and the folder in it where paths without a root start. -/
structure Folder where
  here : Location
  nodes : OrderedMap Location Node

namespace Folder

/-- A folder that holds nothing, in a tree that holds nothing else. -/
def empty : Folder :=
  let here : Location := ["folder".toList]
  ⟨here, (∅ : OrderedMap Location Node).insert here .folder⟩

instance : EmptyCollection Folder := ⟨empty⟩

/-- What stands at a location; the root is there in every tree. -/
def node? (folder : Folder) (l : Location) : Option Node :=
  if l.isEmpty then some .folder else folder.nodes.get? l

/-- Why a path leads to no file. -/
inductive PathError where
  | missing
  | isFolder
  | notFolder
  | tooLong
  /-- Paths end at a null character, so that none can hold one. -/
  | nullCharacter
  deriving DecidableEq

/-- What is said about a path that is none; the other errors go without saying. -/
def PathError.message? : PathError → Option String
  | .nullCharacter => some "embedded null byte"
  | _ => none

/-- Names have at most this many bytes. -/
def longestName : Nat := 255

def isTooLong (name : Text) : Bool := longestName < (String.ofList name).utf8ByteSize

/-- The name by which every folder knows the folder around it. -/
def around : Text := ['.', '.']

/-- Go from a folder to the one of a name; the root stands in itself. -/
def enter (folder : Folder) (l : Location) (name : Text) : Except PathError Location :=
  if name = around then .ok l.tail
  else if isTooLong name then .error .tooLong
  else
    match folder.node? (name :: l) with
    | some .folder => .ok (name :: l)
    | some (.file _) => .error .notFolder
    | none => .error .missing

/-- The folder where a path starts. -/
def start (folder : Folder) (p : Path) : Location := if p.root.isEmpty then folder.here else []

/-- Where the file of a path stands, or would stand. -/
def resolve (folder : Folder) (p : Path) : Except PathError Location :=
  if p.names.any (·.any (· = '\x00')) then .error .nullCharacter
  else
    match p.names.getLast? with
    | none => .error .isFolder
    | some name => do
      let l ← p.names.dropLast.foldlM folder.enter (folder.start p)
      if name = around then throw .isFolder
      else if isTooLong name then throw .tooLong
      else if folder.node? (name :: l) = some .folder then throw .isFolder
      else return name :: l

def read (folder : Folder) (p : Path) : Except PathError Text := do
  match folder.node? (← folder.resolve p) with
  | some (.file content) => return content
  | _ => throw .missing

def write (folder : Folder) (p : Path) (content : Text) : Except PathError Folder := do
  return { folder with nodes := folder.nodes.insert (← folder.resolve p) (.file content) }

def remove (folder : Folder) (p : Path) : Except PathError Folder := do
  let l ← folder.resolve p
  if (folder.node? l).isSome then return { folder with nodes := folder.nodes.erase l }
  else throw .missing

/-- Whether there is a file or a folder; a name that is too long cannot even be asked for. -/
def has (folder : Folder) (p : Path) : Except PathError Bool :=
  match folder.resolve p with
  | .ok l => .ok (folder.node? l).isSome
  | .error .isFolder => .ok true
  | .error .tooLong => .error .tooLong
  | .error _ => .ok false

/-- The name of what stands in the folder itself. -/
def nameHere? (folder : Folder) : Location → Option Text
  | name :: l => if l = folder.here then some name else none
  | [] => none

/-- The names of the files and folders in the order of their characters. -/
def list (folder : Folder) : List Text :=
  (folder.nodes.keys.filterMap folder.nameHere?).mergeSort fun a b => !(b < a)

/-- Every line end, of one or of two characters, becomes a line feed. -/
def evenLines : Text → Text
  | [] => []
  | '\r' :: '\n' :: rest => '\n' :: evenLines rest
  | '\r' :: rest => '\n' :: evenLines rest
  | c :: rest => c :: evenLines rest

/-- Read a file with even line ends. -/
def readLines (folder : Folder) (p : Path) : Except PathError Text :=
  return evenLines (← folder.read p)

end Folder

end Parlance
