import Parlance.OrderedMap
/-!
Registries: named entries in order of first registration, until the registry is frozen. A copy is
not frozen.
-/

namespace Parlance

structure Registry (κ : Type u) (α : Type v) where
  entries : OrderedMap κ α
  frozen : Bool

namespace Registry

/-- A frozen registry takes no entries. -/
inductive Frozen where
  | frozen

variable {κ : Type u} {α : Type v}

def empty : Registry κ α := ⟨∅, false⟩

def freeze (r : Registry κ α) : Registry κ α := { r with frozen := true }

def copy (r : Registry κ α) : Registry κ α := { r with frozen := false }

def size (r : Registry κ α) : Nat := r.entries.size

variable [DecidableEq κ]

def get? (r : Registry κ α) (key : κ) : Option α := r.entries.get? key

def contains (r : Registry κ α) (key : κ) : Bool := r.entries.contains key

/-- Register an entry; one with the same key gives up its place to it. -/
def register (r : Registry κ α) (key : κ) (a : α) : Except Frozen (Registry κ α) :=
  if r.frozen then .error .frozen else .ok { r with entries := r.entries.insert key a }

def ofPairs (pairs : List (κ × α)) : Registry κ α := ⟨OrderedMap.ofPairs pairs, false⟩

end Registry

end Parlance
