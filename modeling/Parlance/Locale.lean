import Parlance.Text
/-!
Codes of locales. Cultures are written with hyphens, identifiers of locales with underscores.
-/

namespace Parlance.Locale

/-- The code of the locale that stands in for unknown ones. -/
def defaultCode : Text := "en_US"

/-- Trim the code and write underscores for hyphens. -/
def normalize (code : Text) : Text := Text.substitute '-' ['_'] (Text.trim code)

end Parlance.Locale
