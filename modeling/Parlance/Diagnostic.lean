import Parlance.Text.Quoted
/-!
Diagnostics: what went wrong, as a code with a number, a sentence, and where known a hint, the
argument it is about and the position of the text it is about. Every wording that the library
reports is made here.
-/

namespace Parlance

namespace Diagnostic

/-- The causes, by number: 1000 for missing arguments, 2000 for evaluation, 3000 for the form of a
pattern, 4000 for stored maps and tables. -/
inductive Code where
  | argumentNotProvided
  | argumentNotNumeric
  | formattingFailed
  | depthExceeded
  | formatterNotFound
  | unbalancedBrace
  | malformedConstruct
  | placeholderMapInvalid
  | tableHeaderInvalid
  deriving DecidableEq

namespace Code

def all : List Code :=
  [.argumentNotProvided, .argumentNotNumeric, .formattingFailed, .depthExceeded,
    .formatterNotFound, .unbalancedBrace, .malformedConstruct, .placeholderMapInvalid,
    .tableHeaderInvalid]

def name : Code → String
  | .argumentNotProvided => "ARGUMENT_NOT_PROVIDED"
  | .argumentNotNumeric => "ARGUMENT_NOT_NUMERIC"
  | .formattingFailed => "FORMATTING_FAILED"
  | .depthExceeded => "MAX_DEPTH_EXCEEDED"
  | .formatterNotFound => "FORMATTER_NOT_FOUND"
  | .unbalancedBrace => "UNBALANCED_BRACE"
  | .malformedConstruct => "MALFORMED_CONSTRUCT"
  | .placeholderMapInvalid => "PLACEHOLDER_MAP_INVALID"
  | .tableHeaderInvalid => "TABLE_HEADER_INVALID"

def number : Code → Nat
  | .argumentNotProvided => 1001
  | .argumentNotNumeric => 2001
  | .formattingFailed => 2002
  | .depthExceeded => 2003
  | .formatterNotFound => 2004
  | .unbalancedBrace => 3001
  | .malformedConstruct => 3002
  | .placeholderMapInvalid => 4001
  | .tableHeaderInvalid => 4002

end Code

inductive Severity where
  | error
  | warning
  deriving DecidableEq

def Severity.name : Severity → String
  | .error => "error"
  | .warning => "warning"

end Diagnostic

/-- One diagnosis; positions count from the start of the pattern that was read. -/
structure Diagnostic where
  code : Diagnostic.Code
  message : Text
  hint : Option Text := none
  argument : Option Text := none
  position : Option Int := none
  severity : Diagnostic.Severity := .error
  deriving DecidableEq

namespace Diagnostic

/-- The lines of a report: the sentence under its code, then the position and the hint if there
are any. An empty hint is no hint. -/
def formatted (d : Diagnostic) : Text :=
  d.severity.name ++ "[" ++ d.code.name ++ "]: " ++ d.message ++
    (match d.position with
      | some position => "\n  --> position " ++ Text.ofInt position
      | none => []) ++
    (match d.hint with
      | some [] | none => []
      | some hint => "\n  = help: " ++ hint)

def argumentNotProvided (name : Text) : Diagnostic where
  code := .argumentNotProvided
  message := "Argument '" ++ name ++ "' not provided"
  hint := some "The placeholder is kept literally in the output".toList
  argument := some name

def argumentNotNumeric (name kind received : Text) : Diagnostic where
  code := .argumentNotNumeric
  message := "Argument '" ++ name ++ "' for " ++ kind ++ " is not numeric (got " ++ received ++ ")"
  hint := some "Pass an int, float, Decimal or numeric string".toList
  argument := some name

def formattingFailed (name kind reason : Text) : Diagnostic where
  code := .formattingFailed
  message := "Formatting '" ++ name ++ "' as " ++ kind ++ " failed: " ++ reason
  argument := some name

def formatterNotFound (kind : Text) : Diagnostic where
  code := .formatterNotFound
  message := "No formatter registered for '" ++ kind ++ "' constructs"
  hint := some "Register one with FormatterRegistry.register()".toList

def depthExceeded (limit : Int) : Diagnostic where
  code := .depthExceeded
  message := "Maximum construct nesting depth (" ++ Text.ofInt limit ++ ") exceeded"
  hint := some "Flatten nested plural/select constructs".toList

def unbalancedBrace (position : Int) : Diagnostic where
  code := .unbalancedBrace
  message := "Unbalanced '\x7b' at position " ++ Text.ofInt position
  hint := some "Escape literal braces as '\x7b\x7b' and '\x7d\x7d'".toList
  position := some position

def malformedConstruct (source : Text) (position : Int) : Diagnostic where
  code := .malformedConstruct
  message := "Malformed construct " ++ source.quoted
  hint := some "Expected \x7bname, kind, label\x7btext\x7d ...\x7d".toList
  position := some position

def placeholderMapInvalid (reason : Text) : Diagnostic where
  code := .placeholderMapInvalid
  message := "Invalid placeholder map file: " ++ reason
  hint := some
    "Expected \x7b\"<namespace>:<key>:<culture>\": \x7b\"\x7b0\x7d\": \"...\"\x7d\x7d".toList

def tableHeaderInvalid (missing : Text) : Diagnostic where
  code := .tableHeaderInvalid
  message := "Translation table header is missing the '" ++ missing ++ "' column"
  hint := some "Re-export the table rather than editing its header row".toList

end Diagnostic

end Parlance
