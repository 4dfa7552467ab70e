import Parlance.Placeholder.Kinds
/-!
Registries of placeholder kinds that are used side by side. Each goes by its number in order of
creation, so that all who know the number see what is registered later. A copy is a registry of its
own.
-/

namespace Parlance

namespace Placeholder

/-- All registries, by number. -/
abbrev Registries := List Kinds

namespace Registries

/-- Why something cannot be done to a registry. -/
inductive Refusal where
  | frozen
  /-- No registry has the number. -/
  | missing
  deriving DecidableEq

/-- Something that is done to registries. What comes before a refusal stays done. -/
abbrev Change := ExceptT Refusal (StateM Registries)

def find (number : Nat) : Change Kinds := do
  match (← get)[number]? with
  | some r => return r
  | none => throw .missing

/-- Give a registry the next number. -/
def add (r : Kinds) : Change Nat := modifyGet fun rs => (rs.length, rs ++ [r])

def put (number : Nat) (r : Kinds) : Change Unit := modify (·.set number r)

def create (kinds : List Kind) : Change Nat := add (.ofList kinds)

def register (number : Nat) (k : Kind) : Change Unit := do
  match (← find number).register k.name k with
  | .ok r => put number r
  | .error .frozen => throw .frozen

def copy (number : Nat) : Change Nat := do add (← find number).copy

def freeze (number : Nat) : Change Unit := do put number (← find number).freeze

inductive Action where
  | create (kinds : List Kind)
  | register (number : Nat) (k : Kind)
  | copy (number : Nat)
  | freeze (number : Nat)

def change : Action → Change Unit
  | .create kinds => do
    let _ ← create kinds
    return
  | .register number k => register number k
  | .copy number => do
    let _ ← copy number
    return
  | .freeze number => freeze number

/-- Whether an action is refused, and the registries after it. -/
def perform (rs : Registries) (a : Action) : Except Refusal Unit × Registries :=
  (change a).run.run rs

def after (rs : Registries) (a : Action) : Registries := (rs.perform a).2

/-- The registries after some actions, where none are there before. A refusal stops nothing. -/
def run (actions : List Action) : Registries := actions.foldl after []

end Registries

end Placeholder

end Parlance
