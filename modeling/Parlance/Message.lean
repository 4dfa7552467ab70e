import Parlance.Depth
import Parlance.Format.Formatters
import Parlance.Plural
import Parlance.Token
/-!
Messages: patterns resolved against arguments. Resolving goes from token to token; whatever cannot
be resolved stays in the text as it was written, and an issue is noted for it. The body of a chosen
branch is a pattern of its own and is resolved one level deeper, as long as the budget of levels
lasts. A fault, which only integers too long to write and errors that nothing catches can cause,
ends the whole run.
-/

namespace Parlance

abbrev Arguments := OrderedMap Text Value

/-- The text of a resolved pattern and the issues noted on the way, in order. -/
structure Outcome where
  text : Text
  issues : List Issue
  deriving DecidableEq

namespace Outcome

def empty : Outcome := ⟨[], []⟩

/-- Text that raises no issue. -/
def plain (t : Text) : Outcome := ⟨t, []⟩

/-- Text that stays because of an issue. -/
def kept (t : Text) (issue : Issue) : Outcome := ⟨t, [issue]⟩

def append (a b : Outcome) : Outcome := ⟨a.text ++ b.text, a.issues ++ b.issues⟩

instance : Append Outcome := ⟨append⟩

def join (outcomes : List Outcome) : Outcome := outcomes.foldr append empty

end Outcome

namespace Message

/-- What a run goes by besides the pattern. -/
structure Context (L : Type) where
  arguments : Arguments
  formatters : Formatters L
  /-- The locale, or the error of the library that found none. -/
  locale : Except Raised L
  /-- The limit that an issue of depth names. -/
  limit : Int

/-- How the body of a branch is resolved: with a numeral for its number signs. There is none when
the budget is used up. -/
abbrev Enter := Option (Option Text → Text → Except Fault Outcome)

/-- Where a branch is refused the source stays. -/
def refused (limit : Int) (source : Text) : Except Fault Outcome :=
  .kept source <$> Depth.refusal limit

variable {L : Type} (ctx : Context L)

/-- Literal text, where a number sign stands for the numeral of the nearest count. -/
def literal (numeral : Option Text) (value : Text) : Text :=
  match numeral with
  | none => value
  | some n => Text.substitute '#' n value

/-- The form under a label resolved as a pattern, or a bare text where there is no form. -/
def resolveBranch (enter : Enter) (c : Construct) (label bare : Text) (numeral : Option Text) :
    Except Fault Outcome :=
  match Plural.select c.forms label with
  | none => .ok (.plain bare)
  | some body =>
    match enter with
    | none => refused ctx.limit c.source
    | some resolve => resolve numeral body

/-- A choice by number: the category is the label, and the number is the numeral of the branch. -/
def resolveCounted (enter : Enter) (c : Construct) (v : Value)
    (category : Number → Plural.Category) : Except Fault Outcome :=
  match v.number? with
  | none =>
    .ok (.kept c.source
      (.resolution (.argumentNotNumeric c.argument c.kind.keyword.toList v.typeName)))
  | some n => do
    let numeral ← n.text
    resolveBranch ctx enter c (category n).name.toList numeral (some numeral)

/-- A choice by value: the text of the value is the label. -/
def resolveSelected (enter : Enter) (c : Construct) (v : Value) (numeral : Option Text) :
    Except Fault Outcome := do
  let selector ← v.message
  resolveBranch ctx enter c selector selector numeral

def resolveField (c : Construct) (field : Construct.Field) (style : Option Text) (v : Value) :
    Except Fault Outcome :=
  match ctx.formatters.get? field with
  | none => do
    let text ← v.message
    return .kept text (.resolution (.formatterNotFound field.keyword.toList))
  | some formatter => do
    let locale ← ctx.locale.mapError .raised
    match formatter.format v locale style with
    | .ok text => .ok (.plain text)
    | .error (.failed reason fallback) =>
      .ok (.kept fallback
        (.formatting (.formattingFailed c.argument field.keyword.toList reason) fallback))
    | .error (.fault f) => .error f

def resolveConstruct (enter : Enter) (numeral : Option Text) (c : Construct) :
    Except Fault Outcome :=
  match ctx.arguments.get? c.argument with
  | none => .ok (.kept c.source (.reference (.argumentNotProvided c.argument)))
  | some v =>
    match c.content with
    | .choice .plural _ => resolveCounted ctx enter c v Plural.cardinal
    | .choice .ordinal _ => resolveCounted ctx enter c v Plural.ordinal
    | .choice .select _ => resolveSelected ctx enter c v numeral
    | .field field style => resolveField ctx c field style v

def resolveToken (enter : Enter) (numeral : Option Text) (token : Token) : Except Fault Outcome :=
  match token with
  | .text value => .ok (.plain (literal numeral value))
  | .placeholder name _ =>
    match ctx.arguments.get? name with
    | none => .ok (.kept token.source (.reference (.argumentNotProvided name)))
    | some v => v.message.map .plain
  | .construct c => resolveConstruct ctx enter numeral c
  | .junk problem position => .ok (.kept token.source (.grammar (problem.diagnostic position)))

/-- Resolve a pattern, given how its branches are resolved. -/
def resolveWith (enter : Enter) (numeral : Option Text) (pattern : Text) :
    Except Fault Outcome := do
  let outcomes ← (Token.ofPattern pattern).mapM (resolveToken ctx enter numeral)
  return .join outcomes

/-- Resolve a pattern with a budget of levels for its branches. -/
def resolve : Nat → Option Text → Text → Except Fault Outcome
  | 0 => resolveWith ctx none
  | budget + 1 => resolveWith ctx (some (resolve budget))

/-- Arguments by position are named by their numbers. -/
def positional (values : List Value) : Arguments :=
  .ofPairs (values.zipIdx.map fun (v, i) => (Text.ofNat i, v))

/-- The text of a construct that chooses among forms. -/
def build (argument keyword : Text) (forms : List (Text × Text)) : Text :=
  "\x7b" ++ argument ++ ", " ++ keyword ++ ", " ++
    [' '].intercalate (forms.map fun (label, body) => label ++ "\x7b" ++ body ++ "\x7d") ++ "\x7d"

end Message

/-- What messages are resolved with: the library of locale data, and the frames of the stack. -/
structure Host (L : Type) where
  babel : Babel L
  frames : Int

/-- How messages are resolved: a locale code, formatters, and a limit on nesting. -/
structure Resolver (L : Type) where
  host : Host L
  localeCode : Text
  formatters : Formatters L
  maxDepth : Int

namespace Resolver

variable {L : Type}

def ofLocale (host : Host L) (code : Text) : Resolver L :=
  ⟨host, Locale.normalize code, .shared host.babel, Depth.defaultLimit⟩

/-- Resolve a pattern. Without arguments it stays as it is. -/
def resolve (r : Resolver L) (arguments : Arguments) (pattern : Text) : Except Fault Outcome :=
  if arguments.isEmpty then .ok (.plain pattern)
  else
    let limit := Depth.clamp r.host.frames r.maxDepth Depth.defaultReserve
    Message.resolve ⟨arguments, r.formatters, r.host.babel.resolve r.localeCode, limit⟩ limit.toNat
      none pattern

/-- The text of a resolved pattern, whatever the issues. -/
def evaluate (r : Resolver L) (arguments : Arguments) (pattern : Text) : Except Fault Text :=
  (r.resolve arguments pattern).map Outcome.text

end Resolver

end Parlance
