import Parlance.Sample.Language
import Parlance.Sample.Week
/-!
Locales: a language at large, in a script, or as one region uses it.
-/

namespace Parlance.Sample

/-- How narrow a locale is: all of the language, its main script, or its main region. -/
inductive Locale.Extent where
  | language
  | script
  | region
  deriving DecidableEq

structure Locale where
  language : Language
  extent : Locale.Extent
  /-- A remark in the identifier that changes nothing else. -/
  modifier : Text
  deriving DecidableEq

namespace Locale

/-- Each language at large and in its region, and its script if it has several. -/
def known : List Locale :=
  Language.all.flatMap fun language =>
    (if language.hasScripts then [.language, .script, .region] else [.language, .region]).map
      fun extent => ⟨language, extent, []⟩

/-- The codes of language, script and region that a locale is named by. -/
def codes (l : Locale) : List Text :=
  let script := if l.language.hasScripts then [l.language.script] else []
  let all := match l.extent with
    | .language => [l.language.code]
    | .script => [l.language.code, l.language.script]
    | .region => [l.language.code] ++ script ++ [l.language.region]
  all.map String.toList

/-- Codes joined by underscores, with the modifier behind an at sign. -/
def identifierOf (codes : List Text) (modifier : Text) : Text :=
  ['_'].intercalate codes ++ if modifier.isEmpty then [] else '@' :: modifier

def identifier (l : Locale) : Text := identifierOf l.codes l.modifier

/-- Where weeks begin and which is the first one; without a region it is as in most places. -/
def weekRule (l : Locale) : Calendar.WeekRule :=
  match l.extent, l.language with
  | .region, .english => ⟨6, 1⟩
  | .region, .german | .region, .french => ⟨0, 4⟩
  | _, _ => ⟨0, 1⟩

end Locale

end Parlance.Sample
