import Parlance.Text
/-!
Delimited text: a line for each record, a delimiter between fields. A field that holds the
delimiter, a double quote, a line feed or a carriage return stands in double quotes, and a quote
inside is doubled.
-/

namespace Parlance.Table.Delimited

/-- Whether a field can only be written in quotes. -/
def needsQuotes (delimiter : Char) (field : Text) : Bool :=
  field.any fun c => c == delimiter || c == '"' || c == '\n' || c == '\r'

def quoted (field : Text) : Text := '"' :: Text.substitute '"' ['"', '"'] field ++ ['"']

def writeField (delimiter : Char) (field : Text) : Text :=
  if needsQuotes delimiter field then quoted field else field

def writeRecord (delimiter : Char) (record : List Text) : Text :=
  [delimiter].intercalate (record.map (writeField delimiter)) ++ ['\n']

def write (delimiter : Char) (records : List (List Text)) : Text :=
  records.flatMap (writeRecord delimiter)

end Parlance.Table.Delimited
