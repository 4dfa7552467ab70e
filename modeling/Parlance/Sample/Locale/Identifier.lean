import Parlance.Fault
import Parlance.Sample.Case
import Parlance.Sample.Locale
import Parlance.Text.Quoted
/-!
Identifiers of locales: a language, then optionally a script, a territory and a variant, joined by
underscores, in any case, and a modifier. An identifier that names no known locale may still be
close to one.
-/

namespace Parlance.Sample.Locale

/-- Why an identifier names no locale. -/
inductive IdentifierError where
  | empty
  | lettersExpected (language : Text)
  | malformed (identifier : Text)
  | unknown (identifier : Text)

def IdentifierError.message : IdentifierError → Text
  | .empty =>
    "Empty locale identifier value: ''\n\nIf you didn't explicitly pass an empty value to a " ++
      "Babel function, this could be caused by there being no suitable locale environment " ++
      "variables for the API you tried to use."
  | .lettersExpected language => "expected only letters, got " ++ language.quoted
  | .malformed identifier => identifier.quoted ++ " is not a valid locale identifier"
  | .unknown identifier => "unknown locale " ++ identifier.quoted

def IdentifierError.raised (e : IdentifierError) : Raised :=
  let kind : Raised.Kind := match e with
    | .unknown _ => .unknownLocale
    | _ => .value
  ⟨kind, e.message⟩

def isAlphabetic (t : Text) : Bool := !t.isEmpty && t.all Text.isLetter

structure Parts where
  language : Text
  script : Option Text
  territory : Option Text
  variant : Option Text
  modifier : Text

namespace Parts

def codes (p : Parts) : List Text :=
  [p.language] ++ p.script.toList ++ p.territory.toList ++ p.variant.toList

/-- The identifier with each part in its usual case. -/
def identifier (p : Parts) : Text := identifierOf p.codes p.modifier

/-- Four letters are a script. -/
def takeScript : List Text → Option Text × List Text
  | part :: rest =>
    if part.length = 4 ∧ isAlphabetic part then
      (some (Text.titleLetters part), rest)
    else (none, part :: rest)
  | [] => (none, [])

/-- Two letters or three digits are a territory. -/
def takeTerritory : List Text → Option Text × List Text
  | part :: rest =>
    if part.length = 2 ∧ isAlphabetic part then (some (Text.capitalLetters part), rest)
    else if part.length = 3 ∧ part.all Text.isDigitOfAnyShape then (some part, rest)
    else (none, part :: rest)
  | [] => (none, [])

/-- Four characters after a digit in front, or at least five after a letter, announce a variant,
which is then the last part. -/
def takeVariant (parts : List Text) : Option Text × List Text :=
  match parts with
  | part :: _ =>
    if (part.length = 4 ∧ (part.take 1).all Text.isDigitOfAnyShape) ∨
        (5 ≤ part.length ∧ (part.take 1).all Text.isLetter) then
      (parts.getLast?.map Text.capitalLetters, parts.dropLast)
    else (none, parts)
  | [] => (none, [])

end Parts

/-- Cut a text at every underscore. -/
def splitUnderscores (t : Text) : List Text :=
  t.foldr (fun c parts =>
    if c = '_' then [] :: parts
    else match parts with
      | part :: rest => (c :: part) :: rest
      | [] => [[c]]) [[]]

/-- The parts of an identifier. What follows a point does not count, and what follows an at sign
is the modifier. -/
def readParts (code : Text) : Except IdentifierError Parts :=
  let identifier := (code.takeWhile (· ≠ '@')).takeWhile (· ≠ '.')
  let modifier := (code.dropWhile (· ≠ '@')).drop 1
  match splitUnderscores identifier with
  | [] => .error .empty
  | first :: rest =>
    let language := Text.smallLetters first
    if isAlphabetic language then
      let (script, rest) := Parts.takeScript rest
      let (territory, rest) := Parts.takeTerritory rest
      let (variant, rest) := Parts.takeVariant rest
      if rest.isEmpty then .ok ⟨language, script, territory, variant, modifier⟩
      else .error (.malformed identifier)
    else .error (.lettersExpected language)

/-- Other codes of the languages. -/
def languageSynonyms : List (String × String) :=
  [("eng", "en"), ("deu", "de"), ("ger", "de"), ("fra", "fr"), ("fre", "fr"), ("zho", "zh"),
    ("chi", "zh"), ("cmn", "zh")]

/-- Other codes of the territories. -/
def territorySynonyms : List (String × String) :=
  [("840", "US"), ("276", "DE"), ("DD", "DE"), ("250", "FR"), ("FX", "FR"), ("156", "CN")]

def canonical (synonyms : List (String × String)) (code : Text) : Text :=
  ((synonyms.find? fun entry => entry.1.toList = code).map (·.2.toList)).getD code

namespace Parts

/-- The known locale that the parts are the name of. -/
def named? (p : Parts) : Option Locale :=
  (known.find? fun l => l.codes = p.codes).map fun l => ⟨l.language, l.extent, p.modifier⟩

/-- The parts by their first codes, without those that stand for nothing in particular. -/
def canonical (p : Parts) : Parts :=
  ⟨Locale.canonical languageSynonyms p.language, p.script.filter (· ≠ "Zzzz".toList),
    (p.territory.map (Locale.canonical territorySynonyms)).filter (· ≠ "ZZ".toList), p.variant,
    p.modifier⟩

/-- The locale that is closest. A bare language is that of its region; of all other parts only the
language and the territory count. -/
def closest? (p : Parts) : Option Locale := do
  let language ← Language.all.find? fun l => l.code.toList = p.language
  if p.codes = [p.language] ∧ p.modifier.isEmpty then some ⟨language, .region, []⟩
  else
    match p.territory with
    | none => some ⟨language, if language.hasScripts then .script else .language, []⟩
    | some t => if t = language.region.toList then some ⟨language, .region, []⟩ else none

end Parts

/-- The locale of an identifier. -/
def parse (identifier : Text) : Except IdentifierError Locale :=
  if identifier.isEmpty then .error .empty
  else do
    let parts ← readParts identifier
    match parts.named? <|> parts.canonical.closest? with
    | some l => .ok l
    | none => .error (.unknown parts.identifier)

end Parlance.Sample.Locale
