import Parlance.Json.Letter
/-!
JSON documents, as far as placeholder maps need them: of a number with a fraction or an exponent
only its spelling is kept, and an object lists its members as written.
-/

namespace Parlance

inductive Json where
  | null
  | boolean (b : Bool)
  | integer (n : Int)
  | real (spelling : Text)
  | text (t : Json.Letters)
  | array (items : List Json)
  | object (members : List (Json.Letters × Json))

namespace Json

/-- The word for the type of a value in messages. -/
def typeName : Json → String
  | .null => "NoneType"
  | .boolean _ => "bool"
  | .integer _ => "int"
  | .real _ => "float"
  | .text _ => "str"
  | .array _ => "list"
  | .object _ => "dict"

/-- What is wrong with a document. -/
inductive Problem where
  | value
  | key
  | colon
  | comma
  | unterminated
  | control
  | escape
  | unicodeEscape
  | extraData
  | byteOrderMark
  deriving DecidableEq

def Problem.message : Problem → String
  | .value => "Expecting value"
  | .key => "Expecting property name enclosed in double quotes"
  | .colon => "Expecting ':' delimiter"
  | .comma => "Expecting ',' delimiter"
  | .unterminated => "Unterminated string starting at"
  | .control => "Invalid control character at"
  | .escape => "Invalid \\escape"
  | .unicodeEscape => "Invalid \\uXXXX escape"
  | .extraData => "Extra data"
  | .byteOrderMark => "Unexpected UTF-8 BOM (decode using utf-8-sig)"

/-- Why reading stops. A problem is found at a place, which is kept as the text from there on. -/
inductive ReadError where
  | refused (problem : Problem) (rest : Text)
  /-- An integer of more digits than may be read. -/
  | oversizedNumeral
  /-- A container inside more containers than there may be. -/
  | tooDeep (container : String)
  deriving DecidableEq

/-- How deep containers may stand inside each other. That is up to the machine that reads, but there
is always room for a container in another one. -/
structure Limit where
  depth : Nat
  two_le : 2 ≤ depth

/-- A reader takes at least one character and leaves the rest. -/
structure Reader (α : Type) where
  read : Text → Except ReadError (α × Text)
  shorter : ∀ {t a rest}, read t = .ok (a, rest) → rest.length < t.length

end Json

end Parlance
