import Parlance.Proofs.Json.Glyph
import Parlance.Proofs.Json.Numeral
/-!
The grammar of documents, apart from how they are read. A value is a word, a number, a text or a
container (Spells), and a document is a value among blanks (Document). What a document may not ask
for is an integer with too many digits, or a container inside too many others; a text that comes to
such a place before anything is wrong with it is excessive (Excessive).
-/

namespace Parlance.Json

abbrev Blanks : Type := Text.Run isBlank

section Lists

variable {α : Type} (Item : α → Text → Prop) (close : Char)

/-- Items with commas between them, and the closing bracket. -/
inductive SpellsItems : List α → Text → Prop
  | last {a : α} {w : Text} (item : Item a w) (before : Blanks) :
    SpellsItems [a] (w ++ (before.text ++ [close]))
  | cons {a : α} {w : Text} {as : List α} {t : Text} (item : Item a w) (before after : Blanks)
    (rest : SpellsItems as t) :
    SpellsItems (a :: as) (w ++ (before.text ++ ',' :: (after.text ++ t)))

/-- What follows an opening bracket, up to the closing one. -/
inductive SpellsList : List α → Text → Prop
  | empty (blanks : Blanks) : SpellsList [] (blanks.text ++ [close])
  | filled {as : List α} {t : Text} (blanks : Blanks) (items : SpellsItems Item close as t) :
    SpellsList as (blanks.text ++ t)

variable (Exceeds : Text → Prop)

/-- Behind complete items comes one that asks for too much. -/
inductive ItemsExceed : Text → Prop
  | here {t : Text} (item : Exceeds t) : ItemsExceed t
  | later {a : α} {w t : Text} (item : Item a w) (before after : Blanks) (rest : ItemsExceed t) :
    ItemsExceed (w ++ (before.text ++ ',' :: (after.text ++ t)))

def ListExceeds (t : Text) : Prop :=
  ∃ (blanks : Blanks) (items : Text), t = blanks.text ++ items ∧ ItemsExceed Item Exceeds items

end Lists

section Members

variable (Value : Json → Text → Prop) (Exceeds : Text → Prop)

/-- A key and its colon, up to the value. -/
def keyText (glyphs : List Glyph) (before after : Blanks) : Text :=
  '"' :: (Glyph.closedText glyphs ++ (before.text ++ ':' :: after.text))

inductive SpellsMember : Letters × Json → Text → Prop
  | mk {j : Json} {w : Text} (key : List Glyph) (before after : Blanks) (value : Value j w) :
    SpellsMember (Glyph.decode key, j) (keyText key before after ++ w)

/-- The value behind a key asks for too much. -/
def MemberExceeds (t : Text) : Prop :=
  ∃ (key : List Glyph) (before after : Blanks) (value : Text),
    t = keyText key before after ++ value ∧ Exceeds value

end Members

/-- A text spells a value. -/
inductive Spells : Json → Text → Prop
  | word {word : String} {j : Json} (mem : (word, j) ∈ words) : Spells j word.toList
  | number (n : Numeral) : Spells n.json n.text
  | text (glyphs : List Glyph) :
    Spells (.text (Glyph.decode glyphs)) ('"' :: Glyph.closedText glyphs)
  | array {items : List Json} {t : Text} (list : SpellsList Spells ']' items t) :
    Spells (.array items) ('[' :: t)
  | object {members : List (Letters × Json)} {t : Text}
    (list : SpellsList (SpellsMember Spells) '\x7d' members t) :
    Spells (.object members) ('\x7b' :: t)

/-- A text is a document of a value. -/
def Document (j : Json) (t : Text) : Prop :=
  ∃ (before : Blanks) (w : Text) (after : Blanks),
    t = before.text ++ (w ++ after.text) ∧ Spells j w

theorem Spells.document {j : Json} {w : Text} (h : Spells j w) : Document j w :=
  ⟨⟨[], by simp⟩, w, ⟨[], by simp⟩, by simp, h⟩

/-- An integer with too many digits is at the head of a text, and nothing goes on with it. -/
def OversizedAhead (t : Text) : Prop :=
  ∃ (n : Numeral) (rest : Text), n.isOversized ∧ EndsNumber rest ∧ t = n.text ++ rest

/-- A text begins like a value and comes to what cannot be held, where so many containers may stand
inside each other: an oversized integer, or a container inside too many others. -/
def Exceeds : Nat → Text → Prop
  | 0 => fun t => OversizedAhead t ∨ ∃ c ∈ ['[', '\x7b'], t.head? = some c
  | depth + 1 => fun t => OversizedAhead t ∨
    (∃ items, t = '[' :: items ∧ ListExceeds Spells (Exceeds depth) items) ∨
    ∃ members, t = '\x7b' :: members ∧
      ListExceeds (SpellsMember Spells) (MemberExceeds (Exceeds depth)) members

/-- A text comes to what no document may ask for. -/
def Excessive (limit : Limit) (t : Text) : Prop :=
  ∃ (before : Blanks) (value : Text), t = before.text ++ value ∧ Exceeds limit.depth value

end Parlance.Json
