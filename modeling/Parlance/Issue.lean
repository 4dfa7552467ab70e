import Parlance.Diagnostic
/-!
Issues: the errors of the library, each with a diagnosis or a plain message. They form families
under one root; an issue of formatting carries the text that stands in for the failed one.
-/

namespace Parlance

namespace Issue

inductive Family where
  | general
  | grammar
  | reference
  | resolution
  | depth
  | formatting (fallback : Text)
  | placeholderMap
  | table
  deriving DecidableEq

namespace Family

/-- A family and the families above it, the root last. -/
def lineage : Family → List Family
  | .general => [.general]
  | .depth => [.depth, .resolution, .general]
  | .formatting fallback => [.formatting fallback, .resolution, .general]
  | .grammar => [.grammar, .general]
  | .reference => [.reference, .general]
  | .resolution => [.resolution, .general]
  | .placeholderMap => [.placeholderMap, .general]
  | .table => [.table, .general]

/-- Stored maps and tables are values handed in from outside; their issues count as errors of a
value too. -/
def blamesValue : Family → Bool
  | .placeholderMap | .table => true
  | _ => false

def fallback? : Family → Option Text
  | .formatting fallback => some fallback
  | _ => none

end Family

inductive Detail where
  | diagnosed (d : Diagnostic)
  | plain (message : Text)
  deriving DecidableEq

end Issue

structure Issue where
  family : Issue.Family
  detail : Issue.Detail
  deriving DecidableEq

namespace Issue

def diagnostic? (issue : Issue) : Option Diagnostic :=
  match issue.detail with
  | .diagnosed d => some d
  | .plain _ => none

def text (issue : Issue) : Text :=
  match issue.detail with
  | .diagnosed d => d.formatted
  | .plain message => message

def grammar (d : Diagnostic) : Issue := ⟨.grammar, .diagnosed d⟩

def reference (d : Diagnostic) : Issue := ⟨.reference, .diagnosed d⟩

def resolution (d : Diagnostic) : Issue := ⟨.resolution, .diagnosed d⟩

def depth (d : Diagnostic) : Issue := ⟨.depth, .diagnosed d⟩

def formatting (d : Diagnostic) (fallback : Text) : Issue := ⟨.formatting fallback, .diagnosed d⟩

def placeholderMap (d : Diagnostic) : Issue := ⟨.placeholderMap, .diagnosed d⟩

def table (d : Diagnostic) : Issue := ⟨.table, .diagnosed d⟩

end Issue

end Parlance
