import Parlance.Text
/-!
File paths: a root and names with slashes between them. Empty names and names of one dot say
nothing and are dropped.
-/

namespace Parlance

structure Path where
  root : Text
  names : List Text
  deriving DecidableEq

namespace Path

/-- Split at every slash. -/
def split : Text → List Text
  | [] => [[]]
  | c :: rest =>
    if c = '/' then [] :: split rest
    else
      match split rest with
      | [] => [[c]]
      | name :: names => (c :: name) :: names

/-- Exactly two slashes at the start make a root of their own; any other number makes one. -/
def rootOf (t : Text) : Text :=
  match (t.takeWhile (· = '/')).length with
  | 0 => []
  | 2 => ['/', '/']
  | _ => ['/']

def ofText (t : Text) : Path :=
  ⟨rootOf t, (split t).filter fun name => !name.isEmpty && name ≠ ['.']⟩

def text (p : Path) : Text :=
  if p.root.isEmpty && p.names.isEmpty then ['.'] else p.root ++ ['/'].intercalate p.names

def name? (p : Path) : Option Text := p.names.getLast?

/-- The last dot of a name and what follows it, unless the dot comes first or last. -/
def suffixOf (name : Text) : Text :=
  let after := name.reverse.takeWhile (· ≠ '.')
  if after.isEmpty ∨ name.length ≤ after.length + 1 then [] else '.' :: after.reverse

def suffix (p : Path) : Text := (p.name?.map suffixOf).getD []

/-- The same path with another suffix; only a path with a name has one. -/
def withSuffix? (p : Path) (suffix : Text) : Option Path := do
  let name ← p.name?
  let stem := name.take (name.length - (suffixOf name).length)
  return { p with names := p.names.dropLast ++ [stem ++ suffix] }

end Path

end Parlance
