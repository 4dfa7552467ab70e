import Parlance.Message
import Parlance.Sample.DateText
import Parlance.Sample.Locale.Identifier
import Parlance.Sample.NumberPattern
/-!
A library of locale data to run messages with: four languages, each at large and in its main region.
It is one library among all that messages can be resolved with.
-/

namespace Parlance.Sample

def formatNumber (pattern : Text) (n : Number) (l : Locale) : Except Raised Text :=
  ((NumberPattern.ofText pattern).bind (·.format l.language n)).mapError NumberPattern.Misfit.raised

/-- The name of a width stands for the locale's pattern; any other format is a pattern itself. -/
def patternOf (patterns : Language.Width → Text) (format : Text) : Text :=
  match Language.Width.ofName? format with
  | some width => patterns width
  | none => format

def formatMoment (pattern : Text) (s : DatePattern.Subject) (l : Locale) : Except Raised Text :=
  (DatePattern.format pattern l s).mapError DatePattern.Misfit.raised

def babel : Babel Locale where
  parse identifier := (Locale.parse identifier).mapError Locale.IdentifierError.raised
  formatDecimal n pattern l := formatNumber (pattern.getD Language.numberPattern) n l
  formatPercent n l := formatNumber l.language.percentPattern n l
  formatDate d format l :=
    formatMoment (patternOf l.language.datePattern format) (.date (d.elim id (·.date))) l
  formatTime t format l :=
    formatMoment (patternOf l.language.timePattern format) (.time (t.elim id (·.time))) l

/-- The library with a stack of ordinary size. -/
def host : Host Locale := ⟨babel, 1000⟩

end Parlance.Sample
