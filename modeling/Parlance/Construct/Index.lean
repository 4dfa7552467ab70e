import Parlance.Construct
/-!
A pattern that is asked about its constructs. What was read last is remembered, so a group that
several askers ask for one after the other is read once.
-/

namespace Parlance.Construct

open Brace

/-- Two places and the construct that was read between them, if there is one. -/
structure Reading where
  start : Int
  stop : Int
  said : Option (Text × Content)

/-- A marked pattern and what was read from it last. -/
structure Index where
  marks : Marks
  last : Option Reading

namespace Index

def ofPattern (pattern : Text) : Index := ⟨mark pattern, none⟩

/-- What was read between two places, unless something else was read since. -/
def remembered? (index : Index) (start stop : Int) : Option (Option (Text × Content)) :=
  index.last.bind fun r => if r.start = start ∧ r.stop = stop then some r.said else none

/-- A question to an index. The index may remember more afterwards, even if the answer is an
error. -/
abbrev Ask (ε : Type) : Type → Type := ExceptT ε (StateM Index)

/-- The answer to a question and the index afterwards. -/
def ask (index : Index) (question : Ask ε α) : Except ε α × Index := question.run.run index

/-- A question that the marks answer. -/
def look (answer : Marks → Except ε α) : Ask ε α := do ofExcept (answer (← get).marks)

/-- Argument and content of the construct between two places. Nothing is remembered of a place
outside the pattern. -/
def content (start stop : Int) : Ask RangeError (Option (Text × Content)) := do
  match (← get).remembered? start stop with
  | some said => return said
  | none =>
    let said ← look fun ms => contentBetween ms start stop
    modify fun index => { index with last := some ⟨start, stop, said⟩ }
    return said

def kind (start stop : Int) : Ask RangeError (Option Kind) := do
  return (← content start stop).map (·.2.kind)

/-- The construct between two places, as if it stood somewhat further on. -/
def construct (start stop offset : Int) : Ask PlaceError (Option Construct) := do
  match ← (content start stop).adapt PlaceError.range with
  | none => return none
  | some said => return some (← look fun ms => (placed ms start stop offset said).mapError .span)

def endOf (place : Int) : Ask RangeError (Option Nat) := look fun ms => .ok (ms.endAt? place)

def nextGroup (place : Int) : Ask RangeError (Option (Nat × Nat)) :=
  look fun ms => .ok (ms.nextGroupAt? place)

def looksLike (start stop : Int) : Ask RangeError Bool :=
  look fun ms => Construct.looksLike ms start stop

def branches (start stop : Int) : Ask RangeError (Option (List PlacedBranch)) :=
  look fun ms => branchesBetween ms start stop

end Index

end Parlance.Construct
