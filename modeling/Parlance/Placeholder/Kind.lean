import Parlance.Construct.Index
import Parlance.Placeholder.Spelling
import Parlance.Token
/-!
Kinds of placeholders. A kind says of a brace group, outer braces included, whether translators
must leave it alone: it holds a construct of one kind, or it has a certain spelling.
-/

namespace Parlance

open Brace

namespace Placeholder

/-- How a kind knows its groups. -/
inductive Rule where
  /-- The group is a construct of a kind. -/
  | construct (kind : Construct.Kind)
  /-- The characters of the group are right. -/
  | spelled (accepts : Text → Bool)
  | nothing

/-- Kinds of message syntax are asked before all others. -/
structure Kind where
  name : Text
  rule : Rule
  icu : Bool

/-- The text between the two outer braces of a group. -/
def inside? : Text → Option Text
  | '{' :: rest => if rest.getLast? = some '}' then some rest.dropLast else none
  | _ => none

theorem inside?_group (body : Text) : inside? ('{' :: (body ++ ['}'])) = some body := by
  simp [inside?]

theorem inside?_eq_some_iff {group body : Text} :
    inside? group = some body ↔ group = '{' :: (body ++ ['}']) := by
  constructor
  · intro h
    unfold inside? at h
    split at h
    · next rest =>
      obtain ⟨hlast, hbody⟩ := Option.ite_none_right_eq_some.1 h
      obtain ⟨t, rfl⟩ := List.getLast?_eq_some_iff.1 hlast
      rw [← Option.some.inj hbody, List.dropLast_concat]
    · contradiction
  · rintro rfl
    exact inside?_group body

/-- Groups that hold decimal digits, of any script, and nothing else. -/
def isIndexed (group : Text) : Bool := (inside? group).any Token.isPositional

def isNameStart (c : Char) : Bool := c.isAlpha || c == '_'

/-- Names of ASCII letters, digits and underscores that start with no digit. -/
def isIdentifier : Text → Bool
  | [] => false
  | first :: rest => isNameStart first && rest.all fun c => isNameStart c || c.isDigit

def isNamed (group : Text) : Bool := (inside? group).any isIdentifier

/-- What kinds look at in a group: the kind of construct that it is, if it is one, and its text. -/
structure Group where
  construct? : Option Construct.Kind
  text : Text

def Group.ofMarks (ms : Marks) : Group := ⟨(Construct.ofGroup? 0 ms).map (·.kind), ms.text⟩

namespace Kind

/-- The construct keyword that the kind goes by, if it goes by one. -/
def keyword? (k : Kind) : Option String :=
  match k.rule with
  | .construct kind => some kind.keyword
  | _ => none

def ofConstruct (name : Text) (kind : Construct.Kind) : Kind := ⟨name, .construct kind, true⟩

/-- The kind of the groups that are spelled as written, if that is how spellings are written. -/
def ofSpelling? (name pattern : Text) (icu : Bool) : Option Kind := do
  return ⟨name, .spelled (Spelling.accepts (← Spelling.ofText? pattern)), icu⟩

/-- Whether a whole group is of the kind. -/
def accepts (k : Kind) (group : Group) : Bool :=
  match k.rule with
  | .construct kind => group.construct? = some kind
  | .spelled accepts => accepts group.text
  | .nothing => false

/-- Whether the text between two places of a pattern is of the kind. Only a kind that looks for a
construct asks for characters that may not be there. -/
def acceptsAt (k : Kind) (start stop : Int) : Construct.Index.Ask RangeError Bool :=
  match k.rule with
  | .construct kind => return (← Construct.Index.kind start stop) = some kind
  | .spelled accepts => Construct.Index.look fun ms =>
      .ok (start.toNat ≤ stop.toNat && accepts (ms.range start stop).text)
  | .nothing => return false

end Kind

end Placeholder

end Parlance
