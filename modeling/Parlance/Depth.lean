import Parlance.Issue
import Parlance.Number
/-!
Limits on nesting. Each level of nesting costs a fixed number of stack frames, so a limit that
was asked for is lowered until it fits the frames there are; a guard counts the levels that are open
and refuses to open one at the limit.
-/

namespace Parlance.Depth

def framesPerLevel : Int := 3

/-- Frames left to the caller unless another number is given. -/
def defaultReserve : Int := 50

/-- The limit unless another one is given. -/
def defaultLimit : Int := 100

/-- The greatest limit that fits the frames; one level always does. -/
def greatest (frames reserve : Int) : Int := max 1 ((frames - reserve).fdiv framesPerLevel)

def clamp (frames requested reserve : Int) : Int := min requested (greatest frames reserve)

/-- The warning that goes with a lowered limit. -/
def warning? (frames requested reserve : Int) : Except Fault (Option Text) :=
  if requested ≤ greatest frames reserve then .ok none
  else do
    let requested ← Number.integerText requested
    let limit ← Number.integerText frames
    let greatest ← Number.integerText (greatest frames reserve)
    return some ("max_depth " ++ requested ++ " is too deep for recursion limit " ++ limit ++
      ". Clamping to " ++ greatest)

/-- The issue of a level that is refused. It names the limit, which has to be written for that. -/
def refusal (limit : Int) : Except Fault Issue := do
  let _ ← Number.integerText limit
  return .depth (.depthExceeded limit)

/-- A count of open levels under a limit. Leaving is never refused, so the count may fall below
zero. -/
structure Guard where
  limit : Int
  current : Int

namespace Guard

def ofLimit (frames requested : Int) : Guard := ⟨clamp frames requested defaultReserve, 0⟩

def isExceeded (g : Guard) : Bool := g.limit ≤ g.current

/-- Open a level, unless there is an issue with that. -/
def enter (g : Guard) : Except Fault (Except Issue Guard) :=
  if g.isExceeded then .error <$> refusal g.limit
  else .ok (.ok { g with current := g.current + 1 })

def leave (g : Guard) : Guard := { g with current := g.current - 1 }

end Guard

end Parlance.Depth
