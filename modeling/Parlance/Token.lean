import Parlance.Brace.Piece
import Parlance.Construct
import Parlance.Diagnostic
/-!
Tokens of a pattern: literal text, placeholders, constructs, and opening braces that are wrong
where they stand. A brace group that is none of these stays literal, and so do escapes; the inside
of such a group is read on its own. Reading never fails, and the sources of the tokens spell the
pattern.
-/

namespace Parlance

open Brace

namespace Token

/-- What is wrong with an opening brace: it never closes, or its group begins like a construct
and is none. -/
inductive Problem where
  | unbalanced
  | malformed (excerpt : Text)
  deriving DecidableEq

def Problem.diagnostic (position : Nat) : Problem → Diagnostic
  | .unbalanced => .unbalancedBrace position
  | .malformed excerpt => .malformedConstruct excerpt position

/-- A malformed construct is shown up to this many characters. -/
def excerptLength : Nat := 40

def excerpt (source : Text) : Text :=
  if source.length ≤ excerptLength then source else source.take excerptLength ++ "..."

end Token

inductive Token where
  | text (value : Text)
  | placeholder (name : Text) (span : Span)
  | construct (c : Construct)
  | junk (problem : Token.Problem) (position : Nat)

namespace Token

/-- The characters of the pattern that a token stands for. -/
def source : Token → Text
  | .text value => value
  | .placeholder name _ => '{' :: name ++ ['}']
  | .construct c => c.source
  | .junk _ _ => ['{']

/-- Where a token stands in the pattern. Literal text does not keep its place. -/
def span? : Token → Option Span
  | .text _ => none
  | .placeholder _ span => some span
  | .construct c => some c.span
  | .junk _ position => some (.ofLength position 1)

def isText : Token → Bool
  | .text _ => true
  | _ => false

/-- Arguments given by position have names of digits. -/
def isPositional (name : Text) : Bool := !name.isEmpty && name.all Text.isDigit

/-- The inside of a group that holds word characters and nothing else. -/
def name? (inner : Marks) : Option Text :=
  let name := Marks.text inner
  if !name.isEmpty && name.all Text.isWord then some name else none

/-- The token at an opening brace, with the number of characters that it takes. -/
def find (pos : Nat) (ms : Marks) : Option (Token × Nat) :=
  match ms.head?.bind Mark.reach with
  | none => some (.junk .unbalanced pos, 1)
  | some n => do
    let group : Marks := ms.take n
    let inner ← Construct.interior? group
    match Construct.ofInterior? inner with
    | some (argument, content) =>
      return (.construct ⟨argument, content, group.text, Span.ofLength pos n⟩, n)
    | none =>
      match name? inner with
      | some name => return (.placeholder name (Span.ofLength pos n), n)
      | none =>
        if Construct.resembles inner then
          return (.junk (.malformed (excerpt (Marks.text group))) pos, 1)
        else none

def ofPiece : Piece Token → Token
  | .literal t => .text t
  | .found token => token

/-- The tokens of a pattern, in order. -/
def ofPattern (pattern : Text) : List Token := (Piece.cut find 0 (mark pattern)).map ofPiece

end Token

end Parlance
