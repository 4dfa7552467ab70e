import Parlance.Text.Quoted
/-!
Words that should name one of a few things and name none of them.
-/

namespace Parlance

structure UnknownWord where
  word : Text
  /-- What the word should have named one of. -/
  type : String

def UnknownWord.message (e : UnknownWord) : Text := e.word.quoted ++ " is not a valid " ++ e.type

/-- The first of several things that is named by a word. -/
def ofWord (type : String) (all : List α) (name : α → String) (word : Text) :
    Except UnknownWord α :=
  match all.find? fun a => (name a).toList = word with
  | some a => .ok a
  | none => .error ⟨word, type⟩

end Parlance
