import Parlance.Placeholder.Kind
import Parlance.Registry
/-!
Registries of placeholder kinds, one kind for each name. The kinds of message syntax come first
and the others after them, each group in order of first registration.
-/

namespace Parlance

open Brace

namespace Placeholder

abbrev Kinds := Registry Text Kind

namespace Kinds

/-- The kinds in the order in which they are asked. -/
def inOrder (r : Kinds) : List Kind :=
  let kinds := r.entries.entries.map Prod.snd
  kinds.filter (·.icu) ++ kinds.filter (!·.icu)

/-- The first kind that accepts a whole group. -/
def ofGroup? (r : Kinds) (group : Group) : Option Kind := r.inOrder.find? (·.accepts group)

/-- The first kind that accepts the text between two places. -/
def matchAt (r : Kinds) (start stop : Int) : Construct.Index.Ask RangeError (Option Kind) :=
  r.inOrder.findM? fun k => k.acceptsAt start stop

def ofList (kinds : List Kind) : Kinds := .ofPairs (kinds.map fun k => (k.name, k))

def default : Kinds :=
  ofList
    [.ofConstruct "ICU_Plural" (.choice .plural), .ofConstruct "ICU_Select" (.choice .select),
     .ofConstruct "ICU_Ordinal" (.choice .ordinal), .ofConstruct "ICU_Date" (.field .date),
     .ofConstruct "ICU_Time" (.field .time), .ofConstruct "ICU_Number" (.field .number),
     ⟨"Indexed", .spelled isIndexed, false⟩, ⟨"Named", .spelled isNamed, false⟩]

/-- The default kinds, frozen. -/
def shared : Kinds := default.freeze

def frozenMessage : Text :=
  "Cannot register placeholder kinds on a frozen registry; use copy() first"

def text (r : Kinds) : Text :=
  "PlaceholderKindRegistry(kinds=" ++ Text.ofNat r.size ++ (if r.frozen then ", frozen)" else ")")

end Kinds

end Placeholder

end Parlance
